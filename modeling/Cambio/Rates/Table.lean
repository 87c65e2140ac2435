import Cambio.Decimal.Printer
import Cambio.Entries
import Cambio.Json.Basic
import Cambio.Text.Upper

/-!
# Rate tables

A rate table tells for every target currency how much of it one unit of the base currency buys.
A rate book has the tables of several base currencies. Codes are compared in capital letters, so
a table that comes from outside is normalized first.

## Main definitions

- `RateTable`, `RateBook` — rates by target currency, tables by base currency
- `RateTable.capitalized` — the table with its codes in capital letters
- `RateTable.normalize` — the same for a table of which every rate has to be usable
- `RateTable.baseline` — the rates to start from while no others are known
-/

namespace Cambio

/-- Rates by target currency. -/
abbrev RateTable := Entries Decimal

/-- Rate tables by base currency. -/
abbrev RateBook := Entries RateTable

namespace RateTable

/-- A currency buys itself at one. -/
def identityRate : Decimal := .one

/-- The table with its codes in capital letters; of two rates of one code the later counts. -/
def capitalized (table : List (String × Decimal)) : RateTable :=
  Entries.ofPairs (table.map fun (code, rate) => (Text.upperString code, rate))

/-- Why a table cannot be used. -/
structure BadRate where
  code : String
  rate : Decimal
  deriving DecidableEq, Repr

/-- The wording for an unusable rate. -/
def BadRate.message (bad : BadRate) : String :=
  s!"Invalid rate for {bad.code}: {bad.rate.text}"

/-- The table with its codes in capital letters, if every rate is finite and above zero. -/
def normalize (table : List (String × Decimal)) : Except BadRate RateTable :=
  match table.find? fun entry => !entry.2.isPositive with
  | some (code, rate) => .error ⟨code, rate⟩
  | none => .ok (capitalized table)

/-- A table as a document. -/
def toJson (table : RateTable) : Json :=
  .object (table.map fun (code, rate) => (code, .decimal rate))

/-- The base currency of the rates to start from. -/
def baselineBase : String := "USD"

/-- A rate with a number of places after the point. -/
def withPlaces (coefficient places : Nat) : Decimal :=
  .finite false coefficient (-(places : Int))

/-- The rates to start from while no others are known. -/
def baseline : RateTable := [
  ("USD", withPlaces 10 1),
  ("EUR", withPlaces 92 2),
  ("GBP", withPlaces 79 2),
  ("JPY", withPlaces 1450 1),
  ("CAD", withPlaces 135 2),
  ("AUD", withPlaces 150 2),
  ("CHF", withPlaces 90 2),
  ("CNY", withPlaces 720 2),
  ("INR", withPlaces 820 1),
  ("RUB", withPlaces 900 1),
  ("IDR", withPlaces 156000 1)]

end RateTable

/-- A book as a document. -/
def RateBook.toJson (book : RateBook) : Json :=
  .object (book.map fun (base, table) => (base, RateTable.toJson table))

/-- Every table normalized and its base in capital letters; of two tables of one base the later
    counts. -/
def RateBook.normalize (book : List (String × List (String × Decimal))) :
    Except RateTable.BadRate RateBook := do
  let tables ← book.mapM fun (base, table) => do
    return (Text.upperString base, ← RateTable.normalize table)
  return Entries.ofPairs tables

end Cambio
