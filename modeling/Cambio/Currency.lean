import Cambio.Schema.Field

/-!
# Currencies

A currency has a code of three capital letters. A catalog is the list of currencies that are
offered; for the better known codes it brings a name, a country and a flag, and any other code is
its own name.

## Main definitions

- `Currency` — a currency of a catalog
- `Currency.ofJson` — the check of a record that describes a currency
- `Currency.catalog` — the catalog of a list of codes
-/

namespace Cambio

/-- A currency that is offered for conversion. -/
structure Currency where
  code : String
  name : String
  country : String
  flag : String
  deriving DecidableEq, Repr

namespace Currency

/-- The code and the name of a currency. -/
def text (c : Currency) : String :=
  s!"{c.code} - {c.name}"

/-- A basic capital letter. -/
def isCapital (c : Char) : Bool :=
  'A' ≤ c && c ≤ 'Z'

/-- A code has three capital letters. -/
def isCode (s : List Char) : Bool :=
  s.length = 3 && s.all isCapital

/-- The pattern that stands for `isCode` in messages. -/
def codePattern : String := "^[A-Z]\x7b3\x7d$"

/-- The check of a text that is to be a code. -/
def checkedCode (s : String) : Checked String :=
  if Text.hasHalf s then .fault .textBroken
  else if isCode s.toList then .valid s
  else .fault (.patternMismatch codePattern)

/-- A field that is the code of a currency. -/
def codeField (v : Json) : Checked String :=
  (Schema.text v).andThen checkedCode

/-- The title of the record of a currency. -/
def title : String := "CurrencyInfo"

/-- The check of a record that describes a currency. -/
def ofJson (v : Json) : Except Schema.Report Currency :=
  let fields := (Schema.members title v).andThen fun ms =>
    Currency.mk <$> Schema.required ms "code" codeField
      <*> Schema.required ms "display_name" Schema.text
      <*> Schema.optional ms "country" "" Schema.text
      <*> Schema.optional ms "flag_glyph" "" Schema.text
  fields.toExcept title

/-- A currency as a document, with its text. -/
def toJson (c : Currency) : Json :=
  .object [
    ("code", .text c.code),
    ("display_name", .text c.name),
    ("country", .text c.country),
    ("flag_glyph", .text c.flag),
    ("text", .text c.text)]

/-- The currencies whose name, country and flag are known. -/
def known : List Currency := [
  ⟨"USD", "US Dollar", "United States", "🇺🇸"⟩,
  ⟨"EUR", "Euro", "European Union", "🇪🇺"⟩,
  ⟨"GBP", "British Pound", "United Kingdom", "🇬🇧"⟩,
  ⟨"JPY", "Japanese Yen", "Japan", "🇯🇵"⟩,
  ⟨"CAD", "Canadian Dollar", "Canada", "🇨🇦"⟩,
  ⟨"AUD", "Australian Dollar", "Australia", "🇦🇺"⟩,
  ⟨"CHF", "Swiss Franc", "Switzerland", "🇨🇭"⟩,
  ⟨"CNY", "Chinese Yuan", "China", "🇨🇳"⟩,
  ⟨"INR", "Indian Rupee", "India", "🇮🇳"⟩,
  ⟨"RUB", "Russian Ruble", "Russia", "🇷🇺"⟩,
  ⟨"IDR", "Indonesian Rupiah", "Indonesia", "🇮🇩"⟩]

/-- A currency of which only the code is known. -/
def bare (code : String) : Currency :=
  ⟨code, code, "", ""⟩

/-- The currency of a code. -/
def ofCode (code : String) : Currency :=
  (known.find? (·.code = code)).getD (bare code)

/-- The catalog of codes of three capital letters. -/
def catalog (codes : List String) : List Currency :=
  codes.map ofCode

/-- The catalog of any texts; the first that is no code is reported. -/
def catalogOf (codes : List String) : Except Schema.Report (List Currency) :=
  codes.mapM fun code =>
    (((checkedCode code).under "code").map ofCode).toExcept title

end Currency

end Cambio
