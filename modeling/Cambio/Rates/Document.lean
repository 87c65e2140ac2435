import Cambio.Calendar.Iso
import Cambio.Json.Reader
import Cambio.Rates.Table
import Cambio.Schema.Field

/-!
# Documents that hold rates

Rates come in two documents: the answer of the rate service, one table under the name `data`, and
the rate file, a book of tables with the time at which it was written. Both are read with exact
decimals and normalized; a single unusable rate refuses the whole document.

## Main definitions

- `RateAnswer.ofJson` — the table of an answer
- `RateDocument` — the contents of a rate file
- `RateDocument.ofJson`, `RateDocument.toJson` — reading and writing them
- `RateDocument.savedAt` — the time at which they were written
-/

namespace Cambio

open Schema

/-- The normalized table, or the rate that refuses it. -/
def RateTable.checked (rates : List (String × Decimal)) : Checked RateTable :=
  .ofRule ((RateTable.normalize rates).mapError RateTable.BadRate.message)

/-- The normalized book, or the rate that refuses it. -/
def RateBook.checked (book : List (String × List (String × Decimal))) : Checked RateBook :=
  .ofRule ((RateBook.normalize book).mapError RateTable.BadRate.message)

namespace RateAnswer

/-- The title of an answer. -/
def title : String := "CurrencyApiResponse"

/-- The table of an answer; it holds at least one rate. -/
def ofJson (v : Json) : Except Report RateTable :=
  let fields := (members title v).andThen fun ms =>
    required ms "data" fun v =>
      (table decimal v).andThen fun rates =>
        if rates.isEmpty then .fault (.refused "Response contains no rates")
        else RateTable.checked rates
  fields.toExcept title

end RateAnswer

/-- The contents of a rate file. -/
structure RateDocument where
  /-- When the file was written. Any text is let through. -/
  timestamp : String
  rates : RateBook
  deriving DecidableEq, Repr

namespace RateDocument

/-- The title of a rate file. -/
def title : String := "PersistedRates"

/-- The contents of a rate file. -/
def ofJson (v : Json) : Except Report RateDocument :=
  let fields := (members title v).andThen fun ms =>
    RateDocument.mk <$> required ms "timestamp" text
      <*> optional ms "rates" [] fun v => (table (table decimal) v).andThen RateBook.checked
  fields.toExcept title

/-- The document of a book of tables, checked as one that is read. -/
def ofBook (timestamp : String) (book : RateBook) : Except Report RateDocument :=
  let tables := Checked.entries
    (fun _ rates => Checked.entries (fun _ rate => finiteDecimal (.ok rate)) rates) book
  (((tables.andThen RateBook.checked).under "rates").map (RateDocument.mk timestamp)).toExcept title

/-- What the time of writing says. -/
inductive SavedAt where
  /-- The text is no date with a time. -/
  | unreadable
  /-- In universal time the date falls out of the calendar. -/
  | outOfRange
  | at (moment : Moment)
  deriving DecidableEq, Repr

/-- The time at which the document was written, in universal time. -/
def savedAt (document : RateDocument) : SavedAt :=
  match Stamp.parse? document.timestamp.toList with
  | none => .unreadable
  | some stamp =>
    match stamp.moment? with
    | some moment => .at moment
    | none => .outOfRange

/-- The document as JSON; every rate is written with all its digits and without a power of
    ten. -/
def toJson (document : RateDocument) : Json :=
  .object [("timestamp", .text document.timestamp),
    ("rates", .object (document.rates.map fun (base, rates) =>
      (base, .object (rates.map fun (code, rate) => (code, .text rate.fixedText)))))]

end RateDocument

end Cambio
