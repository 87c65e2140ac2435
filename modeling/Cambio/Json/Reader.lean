import Cambio.Json.Basic
import Cambio.Text.Encoding

/-!
# Reading JSON

A document is one value between blanks. A flaw is reported at the character where the reading
stopped, by line, column and count. Numbers that are not whole are taken as the reader asks:
exactly, or as the nearest binary floating-point number. The constants for infinities and for a
failed result are read as such numbers.

## Main definitions

- `Json.Flaw`, `Json.Error` — what may be wrong with a document
- `Json.read` — the value of a document
- `Json.readBytes` — the value of a document given as bytes
-/

namespace Cambio.Json

/-- How numbers that are not whole are taken. -/
inductive NumberRule where
  | exact
  | nearest
  deriving DecidableEq, Repr

/-- The ways in which a text breaks the form of a document. -/
inductive Flaw where
  | expectedValue
  | expectedName
  | expectedColon
  | expectedComma
  | extraData
  | controlCharacter
  | unterminated
  | invalidEscape
  | invalidUnicodeEscape
  | byteOrderMark
  deriving DecidableEq, Repr

/-- The wording of a flaw. -/
def Flaw.message : Flaw → String
  | .expectedValue => "Expecting value"
  | .expectedName => "Expecting property name enclosed in double quotes"
  | .expectedColon => "Expecting ':' delimiter"
  | .expectedComma => "Expecting ',' delimiter"
  | .extraData => "Extra data"
  | .controlCharacter => "Invalid control character at"
  | .unterminated => "Unterminated string starting at"
  | .invalidEscape => "Invalid \\escape"
  | .invalidUnicodeEscape => "Invalid \\uXXXX escape"
  | .byteOrderMark => "Unexpected UTF-8 BOM (decode using utf-8-sig)"

/-- Why a document has no value. -/
inductive Error where
  /-- The form is broken, at a line, a column and a count of characters before. -/
  | form (flaw : Flaw) (line column position : Nat)
  /-- A whole number has more digits than are read. -/
  | longNumber (digits : Nat)
  /-- The power of ten of a number is out of every range. -/
  | wideNumber (signal : Decimal.Signal)
  /-- Lists or objects are nested too deeply. -/
  | tooDeep (isList : Bool)
  /-- The bytes are no text. -/
  | encoding (flaw : Text.Flaw)
  deriving DecidableEq, Repr

/-- The wording of an error. -/
def Error.message : Error → String
  | .form flaw line column position =>
    s!"{flaw.message}: line {line} column {column} (char {position})"
  | .longNumber digits =>
    s!"Exceeds the limit (4300 digits) for integer string conversion: value has {digits} " ++
      "digits; use sys.set_int_max_str_digits() to increase the limit"
  | .wideNumber signal => signal.message
  | .tooDeep isList =>
    "maximum recursion depth exceeded while decoding a JSON " ++
      (if isList then "array" else "object") ++ " from a unicode string"
  | .encoding flaw => flaw.message

/-- The document itself is at fault, and not only beyond what the reader can hold. -/
def Error.isMalformed : Error → Bool
  | .form .. | .longNumber _ | .encoding _ => true
  | .wideNumber _ | .tooDeep _ => false

/-- Where a reading stopped: at the flaw, with that many characters left. -/
inductive Stop where
  | form (flaw : Flaw) (left : Nat)
  | longNumber (digits : Nat)
  | wideNumber (signal : Decimal.Signal)
  | tooDeep (isList : Bool)

/-- The error of a stop in a document. -/
def Stop.error (document : List Char) : Stop → Error
  | .form flaw left =>
    let before := document.take (document.length - left)
    let line := before.count '\n' + 1
    let column := (before.reverse.takeWhile (· ≠ '\n')).length + 1
    .form flaw line column before.length
  | .longNumber digits => .longNumber digits
  | .wideNumber signal => .wideNumber signal
  | .tooDeep isList => .tooDeep isList

/-- The most digits of a whole number. -/
def digitLimit : Nat := 4300

/-- The most lists and objects inside one another. -/
def depthLimit : Nat := 990

/-- A blank between the parts of a document. -/
def isSpace (c : Char) : Bool :=
  c = ' ' || c = '\t' || c = '\n' || c = '\r'

/-- What follows the blanks. -/
def skip (s : List Char) : List Char :=
  s.dropWhile isSpace

/-- The code unit of four hexadecimal digits. -/
def hexUnit? (a b c d : Char) : Option Nat := do
  return (((← Text.hexValue? a) * 16 + (← Text.hexValue? b)) * 16 + (← Text.hexValue? c)) * 16 +
    (← Text.hexValue? d)

/-- The character of a short escape. -/
def shortEscape? (c : Char) : Option Nat :=
  if c = '"' ∨ c = '\\' ∨ c = '/' then some c.toNat
  else if c = 'b' then some 0x08
  else if c = 'f' then some 0x0C
  else if c = 'n' then some 0x0A
  else if c = 'r' then some 0x0D
  else if c = 't' then some 0x09
  else none

/-- The code points of a text up to its closing quote, and the rest. A surrogate comes only from
    an escape. `start` is what was left at the opening quote. -/
def readUnits (start : Nat) : List Char → Except Stop (List Nat × List Char)
  | [] => .error (.form .unterminated start)
  | '"' :: rest => .ok ([], rest)
  | '\\' :: [] => .error (.form .unterminated start)
  | '\\' :: 'u' :: a :: b :: c :: d :: e :: rest =>
    match hexUnit? a b c d with
    | none => .error (.form .invalidUnicodeEscape (rest.length + 6))
    | some n => (readUnits start (e :: rest)).map fun (ns, rest) => (n :: ns, rest)
  | '\\' :: c :: rest =>
    if c = 'u' then .error (.form .invalidUnicodeEscape (rest.length + 1))
    else
      match shortEscape? c with
      | none => .error (.form .invalidEscape (rest.length + 2))
      | some n => (readUnits start rest).map fun (ns, rest) => (n :: ns, rest)
  | c :: rest =>
    if c.toNat < 0x20 then .error (.form .controlCharacter (rest.length + 1))
    else (readUnits start rest).map fun (ns, rest) => (c.toNat :: ns, rest)

/-- The characters of code points; two halves of a surrogate pair are one character, and a half
    alone is kept. -/
def joinUnits : List Nat → List Char
  | [] => []
  | [n] => [Text.charOfPoint n]
  | a :: b :: rest =>
    if 0xD800 ≤ a ∧ a ≤ 0xDBFF ∧ 0xDC00 ≤ b ∧ b ≤ 0xDFFF then
      Text.charOfPoint (0x10000 + (a - 0xD800) * 0x400 + (b - 0xDC00)) :: joinUnits rest
    else Text.charOfPoint a :: joinUnits (b :: rest)

/-- A text after its opening quote, and the rest. -/
def readText (s : List Char) : Except Stop (String × List Char) :=
  (readUnits (s.length + 1) s).map fun (ns, rest) => (String.ofList (joinUnits ns), rest)

/-- Digits with a leading zero only if it is alone, and the rest. -/
def takeWhole? (s : List Char) : Option (List Char × List Char) :=
  match s with
  | '0' :: rest => some (['0'], rest)
  | _ =>
    let ds := s.takeWhile Decimal.isBasicDigit
    if ds = [] then none else some (ds, s.dropWhile Decimal.isBasicDigit)

/-- The digits after a point, if there are any, and the rest. -/
def takeFraction (s : List Char) : List Char × List Char :=
  match s with
  | '.' :: rest =>
    let ds := rest.takeWhile Decimal.isBasicDigit
    if ds = [] then ([], s) else (ds, rest.dropWhile Decimal.isBasicDigit)
  | _ => ([], s)

/-- The power of ten after its letter, if there is one, and the rest. -/
def takePower (s : List Char) : Option Int × List Char :=
  match s with
  | c :: rest =>
    if c = 'e' ∨ c = 'E' then
      let (negative, body) := Decimal.splitSign rest
      let ds := body.takeWhile Decimal.isBasicDigit
      if ds = [] then (none, s)
      else
        let n : Int := Decimal.digitsValue 0 ds
        (some (if negative then -n else n), body.dropWhile Decimal.isBasicDigit)
    else (none, s)
  | [] => (none, s)

/-- A number, and the rest. -/
def readNumber (rule : NumberRule) (s : List Char) : Except Stop (Json × List Char) :=
  let (negative, body) :=
    match s with
    | '-' :: rest => (true, rest)
    | _ => (false, s)
  match takeWhole? body with
  | none => .error (.form .expectedValue s.length)
  | some (units, rest) =>
    let (fraction, rest) := takeFraction rest
    let (power, rest) := takePower rest
    if fraction = [] ∧ power = none then
      if digitLimit < units.length then .error (.longNumber units.length)
      else
        let n : Int := Decimal.digitsValue 0 units
        .ok (.whole (if negative then -n else n), rest)
    else
      let coefficient := Decimal.digitsValue (Decimal.digitsValue 0 units) fraction
      let exponent := power.getD 0 - fraction.length
      match rule with
      | .nearest => .ok (.binary (.ofPowerOfTen negative coefficient exponent), rest)
      | .exact =>
        match Decimal.bounded negative coefficient exponent with
        | .ok d => .ok (.decimal d, rest)
        | .error signal => .error (.wideNumber signal)

/-- The constants, each with what it stands for. -/
def constants : List (List Char × Json) :=
  [("null".toList, .null), ("true".toList, .bool true), ("false".toList, .bool false),
    ("NaN".toList, .binary .nan), ("Infinity".toList, .binary (.infinite false)),
    ("-Infinity".toList, .binary (.infinite true))]

/-- A constant or a number, and the rest. -/
def readScalar (rule : NumberRule) (s : List Char) : Except Stop (Json × List Char) :=
  match constants.find? fun (word, _) => word.isPrefixOf s with
  | some (word, v) => .ok (v, s.drop word.length)
  | none => readNumber rule s

mutual

/-- A value, and the rest. `fuel` bounds the steps and `depth` the nesting. -/
def readValue (rule : NumberRule) (fuel depth : Nat) (s : List Char) :
    Except Stop (Json × List Char) :=
  match fuel with
  | 0 => .error (.form .expectedValue s.length)
  | fuel + 1 =>
    match s with
    | '"' :: rest => (readText rest).map fun (t, rest) => (.text t, rest)
    | '[' :: rest =>
      match depth with
      | 0 => .error (.tooDeep true)
      | depth + 1 =>
        match skip rest with
        | ']' :: rest => .ok (.list [], rest)
        | rest => (readItems rule fuel depth rest).map fun (vs, rest) => (.list vs, rest)
    | '\x7b' :: rest =>
      match depth with
      | 0 => .error (.tooDeep false)
      | depth + 1 =>
        match skip rest with
        | '\x7d' :: rest => .ok (.object [], rest)
        | rest =>
          (readMembers rule fuel depth rest).map fun (ms, rest) =>
            (.object (Entries.ofPairs ms), rest)
    | _ => readScalar rule s

/-- The items of a list up to its closing bracket, and the rest. -/
def readItems (rule : NumberRule) (fuel depth : Nat) (s : List Char) :
    Except Stop (List Json × List Char) :=
  match fuel with
  | 0 => .error (.form .expectedValue s.length)
  | fuel + 1 =>
    match readValue rule fuel depth s with
    | .error e => .error e
    | .ok (v, rest) =>
      match skip rest with
      | ']' :: rest => .ok ([v], rest)
      | ',' :: rest => (readItems rule fuel depth (skip rest)).map fun (vs, rest) => (v :: vs, rest)
      | rest => .error (.form .expectedComma rest.length)

/-- The members of an object up to its closing brace, and the rest. -/
def readMembers (rule : NumberRule) (fuel depth : Nat) (s : List Char) :
    Except Stop (List (String × Json) × List Char) :=
  match fuel with
  | 0 => .error (.form .expectedName s.length)
  | fuel + 1 =>
    match s with
    | '"' :: rest =>
      match readText rest with
      | .error e => .error e
      | .ok (name, rest) =>
        match skip rest with
        | ':' :: rest =>
          match readValue rule fuel depth (skip rest) with
          | .error e => .error e
          | .ok (v, rest) =>
            match skip rest with
            | '\x7d' :: rest => .ok ([(name, v)], rest)
            | ',' :: rest =>
              (readMembers rule fuel depth (skip rest)).map fun (ms, rest) =>
                ((name, v) :: ms, rest)
            | rest => .error (.form .expectedComma rest.length)
        | rest => .error (.form .expectedColon rest.length)
    | rest => .error (.form .expectedName rest.length)

end

/-- The value of a document, or where its reading stopped. -/
def readDocument (rule : NumberRule) (s : List Char) : Except Stop Json :=
  match readValue rule (2 * s.length + 2) depthLimit (skip s) with
  | .error e => .error e
  | .ok (v, rest) =>
    match skip rest with
    | [] => .ok v
    | rest => .error (.form .extraData rest.length)

/-- The value of a document. A byte order mark is no part of a text. -/
def read (rule : NumberRule) (s : List Char) : Except Error Json :=
  if s.head? = some '\uFEFF' then .error (Stop.error s (.form .byteOrderMark s.length))
  else (readDocument rule s).mapError (Stop.error s)

/-- The value of a document given as bytes in the encoding that the first of them suggest. -/
def readBytes (rule : NumberRule) (bytes : List UInt8) : Except Error Json :=
  match Text.decodeDetected? bytes with
  | .error flaw => .error (.encoding flaw)
  | .ok s => (readDocument rule s).mapError (Stop.error s)

end Cambio.Json
