import Cambio.Decimal.Arithmetic
import Cambio.Rates.Table
import Cambio.Service.Fault

/-!
# Resolving rates

The rate from one currency to another is looked for in steps: a currency buys itself at one; then
the rate in the table of the first currency counts; then the quotient of two rates in the table of
one of two reference currencies. When all steps fail the rate is one, and marked as a stopgap.

## Main definitions

- `Resolution` — a rate and where it comes from
- `Resolution.cross?` — the quotient over a reference currency
- `Resolution.ofBook` — the steps over the tables that are at hand
-/

namespace Cambio

/-- Where a rate comes from. -/
inductive Resolution.Source where
  /-- Both currencies are the same. -/
  | identity
  /-- The table of the first currency. -/
  | direct
  /-- The table of the first reference currency. -/
  | crossPrimary
  /-- The table of the second reference currency. -/
  | crossSecondary
  /-- Nowhere: the rate is a stopgap. -/
  | fallback
  deriving DecidableEq, Repr

/-- The written name of a source. -/
def Resolution.Source.name : Resolution.Source → String
  | .identity => "identity"
  | .direct => "direct"
  | .crossPrimary => "cross_primary"
  | .crossSecondary => "cross_secondary"
  | .fallback => "fallback"

/-- A rate and where it comes from. -/
structure Resolution where
  fromCode : String
  toCode : String
  rate : Decimal
  source : Resolution.Source
  /-- The reference currency of a quotient. -/
  reference : Option String
  deriving DecidableEq, Repr

namespace Resolution

/-- No rate was found. -/
def isFallback (r : Resolution) : Bool :=
  r.source = .fallback

/-- A resolution as a document. -/
def toJson (r : Resolution) : Json :=
  .object [
    ("from", .text r.fromCode),
    ("to", .text r.toCode),
    ("rate", .decimal r.rate),
    ("source", .text r.source.name),
    ("reference", .ofOption .text r.reference),
    ("fallback", .bool r.isFallback)]

/-- The report about a rate that is not finite. -/
def notFinite : Schema.Report :=
  ⟨"RateResolution", [⟨["rate"], .finiteExpected⟩]⟩

/-- A resolution has a finite rate. -/
def checked (r : Resolution) : Except Breakdown Resolution :=
  if r.rate.isFinite then .ok r else .error (.record notFinite)

/-- The quotient of the rates of two currencies in the table of a reference currency, unless one of
    them is missing or the divisor is zero. -/
def cross? (book : RateBook) (hub fromCode toCode : String) :
    Option (Except Decimal.Signal Decimal) := do
  let table ← Entries.get? hub book
  let divisor ← Entries.get? fromCode table
  let dividend ← Entries.get? toCode table
  if divisor.isZero then none else some (dividend.div divisor)

/-- The resolution by a quotient. -/
def ofCross (fromCode toCode hub : String) (source : Source) :
    Except Decimal.Signal Decimal → Except Breakdown Resolution
  | .ok rate => checked ⟨fromCode, toCode, rate, source, some hub⟩
  | .error signal => .error (.arithmetic signal)

/-- The resolution of two different codes over the tables that are at hand. -/
def ofBook (book : RateBook) (primary secondary fromCode toCode : String) :
    Except Breakdown Resolution :=
  match (Entries.get? fromCode book).bind (Entries.get? toCode) with
  | some rate => checked ⟨fromCode, toCode, rate, .direct, none⟩
  | none =>
    match cross? book primary fromCode toCode with
    | some rate => ofCross fromCode toCode primary .crossPrimary rate
    | none =>
      match cross? book secondary fromCode toCode with
      | some rate => ofCross fromCode toCode secondary .crossSecondary rate
      | none => .ok ⟨fromCode, toCode, .one, .fallback, none⟩

/-- The resolution of a code to itself. -/
def identity (code : String) : Resolution :=
  ⟨code, code, .one, .identity, none⟩

/-- What is said when no rate was found. -/
def missingMessage (fromCode toCode : String) : String :=
  s!"Exchange rate not available for {fromCode} to {toCode}"

end Resolution

end Cambio
