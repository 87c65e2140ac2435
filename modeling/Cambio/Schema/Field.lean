import Cambio.Json.Basic
import Cambio.Schema.Basic
import Cambio.Text.Blank
import Cambio.Decimal.Reader

/-!
# Reading fields

The values of a JSON document as the fields of records. Reading is generous where no information
is lost: a whole number may be given as a text or as a number without a fraction, a yes or no as
a word, and a number as a text.

## Main definitions

- `Schema.text`, `Schema.whole`, `Schema.number`, `Schema.yesNo`, `Schema.decimal` — fields of one
  value
- `Schema.table` — a field that is a table of named values
- `Schema.required`, `Schema.optional` — a field of a record by its name
- `Schema.wholeBetween`, `Schema.numberBetween` — fields within bounds
-/

namespace Cambio.Schema

/-- A blank around a number given as a text; the information separators are none. -/
def isMargin (c : Char) : Bool :=
  Text.isBlank c && !(0x1C ≤ c.toNat && c.toNat ≤ 0x1F)

/-- A field that is a text. -/
def text : Json → Checked String
  | .text s => .valid s
  | _ => .fault .textExpected

/-- Underscores stand only between the characters of a number; they are dropped. -/
def dropUnderscores? (s : List Char) : Option (List Char) :=
  let rec alone : List Char → Bool
    | '_' :: '_' :: _ => false
    | _ :: rest => alone rest
    | [] => true
  if s.head? = some '_' ∨ s.getLast? = some '_' ∨ ¬ alone s then none
  else some (s.filter (· ≠ '_'))

/-- What is left of the digits of a whole number without leading zeros, of which underscores may
    be among; the last of zeros alone is left. A minus sign ends the zeros as a digit does. -/
def dropLeadingZeros? : List Char → Option (List Char)
  | '0' :: rest =>
    let rec go (last : Char) : List Char → Option (List Char)
      | [] => some [last]
      | c :: rest =>
        if c = '0' ∨ c = '_' then go c rest
        else if '1' ≤ c ∧ c ≤ '9' ∨ c = '-' then some (c :: rest)
        else if c = '.' then some (last :: c :: rest)
        else none
    go '0' rest
  | c :: rest => if '1' ≤ c ∧ c ≤ '9' ∨ c = '-' then some (c :: rest) else none
  | [] => none

/-- A fraction of zeros alone is dropped. -/
def dropZeroFraction (s : List Char) : List Char :=
  match s.dropWhile (· ≠ '.') with
  | _ :: c :: fraction =>
    if (c :: fraction).all (· = '0') then s.takeWhile (· ≠ '.') else s
  | _ => s

/-- The value of digits, of which there has to be at least one. -/
def unsigned? (ds : List Char) : Option Nat :=
  if ds ≠ [] ∧ ds.all Decimal.isBasicDigit then some (Decimal.digitsValue 0 ds) else none

/-- A whole number of few characters: a sign and digits. -/
def parseShort? : List Char → Option Int
  | '-' :: ds => (unsigned? ds).map fun n => -(n : Int)
  | '+' :: ds => (unsigned? ds).map Int.ofNat
  | ds => (unsigned? ds).map Int.ofNat

/-- A whole number of many characters: signs and digits, after the first of which underscores do
    not count. A plus sign may follow neither sign. -/
def parseLong? (s : List Char) : Option Int :=
  let magnitude? (s : List Char) : Option Nat :=
    if s.head? = some '_' then none else unsigned? (s.filter (· ≠ '_'))
  let unmarked? : List Char → Option Nat
    | '+' :: '+' :: _ => none
    | '+' :: rest => magnitude? rest
    | s => magnitude? s
  match s with
  | '-' :: '+' :: _ => none
  | '-' :: rest => (unmarked? rest).map fun n => -(n : Int)
  | s => (unmarked? s).map Int.ofNat

/-- The fewest characters of a whole number that count as many. -/
def longWhole : Nat := 19

/-- A whole number as it stands. -/
def parseStanding? (s : List Char) : Option Int :=
  if s.length < longWhole then parseShort? s else parseLong? s

/-- The text of a whole number without what does not count: blanks around it, a plus sign, leading
    zeros, a fraction of zeros and underscores between its characters. -/
def cleanWhole? (s : List Char) : Option (List Char) := do
  let trimmed := Text.trimBy isMargin s
  let body ←
    match trimmed with
    | '+' :: '-' :: _ => none
    | '+' :: rest => some rest
    | rest => some rest
  let units := dropZeroFraction (← dropLeadingZeros? body)
  return (dropUnderscores? units).getD units

/-- The whole number of a text, as it stands or without what does not count. -/
def parseWhole? (s : List Char) : Option Int :=
  (parseStanding? s).or ((cleanWhole? s).bind parseStanding?)

/-- The most characters of a whole number given as a text. -/
def wholeTextLimit : Nat := 4300

/-- The whole number that a floating-point number is, within 64 bits. -/
def wholeOfNumber : Binary64 → Checked Int
  | .finite negative m e =>
    let (top, bottom) := Binary64.ratio m e
    if top % bottom ≠ 0 then .fault .wholeFraction
    else if Nat.pow 2 63 ≤ top / bottom then .fault .wholeTooLarge
    else
      let n : Int := (top / bottom : Nat)
      .valid (if negative then -n else n)
  | _ => .fault .finiteExpected

/-- The whole number of a text. -/
def wholeOfText (s : String) : Checked Int :=
  if Text.hasHalf s then .fault .textBroken
  else if wholeTextLimit < s.utf8ByteSize then .fault .wholeTooLarge
  else
    match parseWhole? s.toList with
    | some n => .valid n
    | none => .fault .wholeUnreadable

/-- A field that is a whole number. -/
def whole : Json → Checked Int
  | .whole n => .valid n
  | .bool b => .valid (if b then 1 else 0)
  | .binary x => wholeOfNumber x
  | .text s => wholeOfText s
  | _ => .fault .wholeExpected

/-- The number of a text, with blanks around it or with underscores between its characters. -/
def parseNumber? (s : List Char) : Option Binary64 :=
  (Binary64.parse? (Text.trimBy isMargin s)).or ((dropUnderscores? s).bind Binary64.parse?)

/-- A whole number as a number, unless it is too large for one. -/
def numberOfWhole (n : Int) : Checked Binary64 :=
  let x := Binary64.ofInt n
  if x.isFinite then .valid x else .fault .numberExpected

/-- A field that is a number. -/
def number : Json → Checked Binary64
  | .binary x => .valid x
  | .whole n => numberOfWhole n
  | .bool b => .valid (.ofNat (if b then 1 else 0))
  | .text s =>
    if Text.hasHalf s then .fault .textBroken
    else
      match parseNumber? s.toList with
      | some x => .valid x
      | none => .fault .numberUnreadable
  | _ => .fault .numberExpected

/-- The words for no, in small letters. -/
def noWords : List String := ["0", "off", "f", "false", "n", "no"]

/-- The words for yes, in small letters. -/
def yesWords : List String := ["1", "on", "t", "true", "y", "yes"]

/-- A whole number within 64 bits. -/
def isWord (n : Int) : Bool :=
  -(Nat.pow 2 63 : Int) ≤ n && n < (Nat.pow 2 63 : Int)

/-- One is a yes and zero a no; another number of 64 bits cannot be read, and a wider one is no
    answer at all. -/
def yesNoOfWhole (n : Int) : Checked Bool :=
  if n = 0 then .valid false
  else if n = 1 then .valid true
  else if isWord n then .fault .yesNoUnreadable
  else .fault .yesNoExpected

/-- A field that is a yes or a no. -/
def yesNo : Json → Checked Bool
  | .bool b => .valid b
  | .whole n => yesNoOfWhole n
  | .binary x =>
    match wholeOfNumber x with
    | .valid n => yesNoOfWhole n
    | .invalid _ => .fault .yesNoExpected
  | .text s =>
    let word := String.ofList (s.toList.map Char.toLower)
    if Text.hasHalf s then .fault .textBroken
    else if word ∈ noWords then .valid false
    else if word ∈ yesWords then .valid true
    else .fault .yesNoUnreadable
  | _ => .fault .yesNoExpected

/-- A decimal that was read for a field: it has to be finite. -/
def finiteDecimal : Except Decimal.Signal Decimal → Checked Decimal
  | .ok d => if d.isFinite then .valid d else .fault .finiteExpected
  | .error _ => .fault .decimalUnreadable

/-- A field that is a decimal; a floating-point number is taken by its digits. -/
def decimal : Json → Checked Decimal
  | .decimal d => finiteDecimal (.ok d)
  | .whole n => .valid (.ofInt n)
  | .binary x => finiteDecimal (Decimal.parse (x.write Binary64.display))
  | .text s => finiteDecimal (Decimal.parse s.toList)
  | _ => .fault .decimalExpected

/-- A field that is a table of named values, each checked by itself. -/
def table {α : Type} (check : Json → Checked α) : Json → Checked (List (String × α))
  | .object members => Checked.entries (fun _ v => check v) members
  | _ => .fault .tableExpected

/-- A number within bounds; the upper one is tried first, and a failed result is within no
    bounds. -/
def numberBetween (low high : Nat) (v : Json) : Checked Binary64 :=
  (number v).andThen fun x =>
    if !x.le (.ofNat high) then .fault (.aboveBound high)
    else if !(Binary64.ofNat low).le x then .fault (.belowBound low)
    else .valid x

/-- A whole number within bounds. -/
def wholeBetween (low high : Nat) (v : Json) : Checked Nat :=
  (whole v).andThen fun n =>
    if (high : Int) < n then .fault (.aboveBound high)
    else if n < low then .fault (.belowBound low)
    else .valid n.toNat

/-- A text that a rule accepts, perhaps changed by it. -/
def ruledText (rule : String → Except String String) (v : Json) : Checked String :=
  (text v).andThen fun s => .ofRule (rule s)

/-- The members of a record. -/
def members (title : String) : Json → Checked (List (String × Json))
  | .object members => .valid members
  | _ => .fault (.recordExpected title)

/-- A field that a record must have. -/
def required {α : Type} (members : List (String × Json)) (name : String)
    (check : Json → Checked α) : Checked α :=
  match Entries.get? name members with
  | some v => (check v).under name
  | none => (Checked.fault .missing).under name

/-- A field with a default, which stands unchecked. -/
def optional {α : Type} (members : List (String × Json)) (name : String) (default : α)
    (check : Json → Checked α) : Checked α :=
  match Entries.get? name members with
  | some v => (check v).under name
  | none => .valid default

end Cambio.Schema
