import Cambio.Decimal.Rounding
import Cambio.Text.Blank
import Cambio.Text.Digit

/-!
# Reading decimals

The written forms of a decimal: an optional sign, then digits with at most one point and an
optional power of ten, or a word for a special value. Blanks around the text and underscores
inside it are ignored, digits may be of any script, and letters of either case. Nothing is
rounded; only a power of ten beyond the range that any precision could hold is refused.

## Main definitions

- `Decimal.plainText` — a text with basic digits and no underscores
- `Decimal.parse` — the decimal of a text, or the signal that it has none
-/

namespace Cambio.Decimal

/-- The highest power of ten a leading digit may be written with. -/
def widestExponent : Int := 999999999999999999

/-- The lowest power of ten a last digit may be written with. -/
def deepestExponent : Int := -1999999999999999997

/-- A character of a number as a basic character: a digit of any script is the basic digit, a
    blank is a space; any other character beyond the basic ones has no place in a number. -/
def plainChar (c : Char) : Option Char :=
  if 0 < c.toNat ∧ c.toNat < 0x80 then some c
  else if Text.isBlank c then some ' '
  else (Text.digitValue? c).map Text.digitChar

/-- The characters of a number in basic characters, without surrounding blanks and without
    underscores. -/
def plainText (s : List Char) : Option (List Char) :=
  ((Text.trim s).filter (· ≠ '_')).mapM plainChar

/-- The number that basic digits denote, after the number `start`. -/
def digitsValue (start : Nat) (ds : List Char) : Nat :=
  ds.foldl (fun n c => n * 10 + (c.toNat - 0x30)) start

/-- A basic decimal digit. -/
def isBasicDigit (c : Char) : Bool :=
  '0' ≤ c && c ≤ '9'

/-- A sign and what follows it; no sign is a plus. -/
def splitSign : List Char → Bool × List Char
  | '-' :: rest => (true, rest)
  | '+' :: rest => (false, rest)
  | rest => (false, rest)

/-- The power of ten after a coefficient: nothing, or a letter E with signed digits. -/
def parseExponent : List Char → Option Int
  | [] => some 0
  | c :: rest =>
    if c = 'e' ∨ c = 'E' then
      let (negative, ds) := splitSign rest
      if ds ≠ [] ∧ ds.all isBasicDigit then
        let n := digitsValue 0 ds
        some (if negative then -(n : Int) else n)
      else none
    else none

/-- The unsigned number that starts a text: its coefficient, its exponent and nothing after. -/
def parseMagnitude (s : List Char) : Option (Nat × Int) :=
  let whole := s.takeWhile isBasicDigit
  let rest := s.dropWhile isBasicDigit
  let (fraction, rest) :=
    match rest with
    | '.' :: more => (more.takeWhile isBasicDigit, more.dropWhile isBasicDigit)
    | _ => ([], rest)
  if whole = [] ∧ fraction = [] then none
  else
    (parseExponent rest).map fun exponent =>
      (digitsValue (digitsValue 0 whole) fraction, exponent - fraction.length)

/-- A word for a special value, in small letters. -/
def parseSpecial (negative : Bool) (s : List Char) : Option Decimal :=
  if s = "inf".toList ∨ s = "infinity".toList then some (.infinite negative)
  else
    match s with
    | 'n' :: 'a' :: 'n' :: ds =>
      if ds.all isBasicDigit then some (.nan false negative (digitsValue 0 ds)) else none
    | 's' :: 'n' :: 'a' :: 'n' :: ds =>
      if ds.all isBasicDigit then some (.nan true negative (digitsValue 0 ds)) else none
    | _ => none

/-- A finite decimal, unless its power of ten is out of every range. -/
def bounded (negative : Bool) (coefficient : Nat) (exponent : Int) : Except Signal Decimal :=
  let top := if coefficient = 0 then exponent else adjusted coefficient exponent
  if top ≤ widestExponent ∧ deepestExponent ≤ exponent then
    .ok (.finite negative coefficient exponent)
  else .error .invalidOperation

/-- The decimal of a text. -/
def parse (s : List Char) : Except Signal Decimal :=
  match plainText s with
  | none => .error .conversionSyntax
  | some plain =>
    let (negative, body) := splitSign plain
    match parseMagnitude body with
    | some (coefficient, exponent) => bounded negative coefficient exponent
    | none =>
      match parseSpecial negative (body.map Char.toLower) with
      | some d => .ok d
      | none => .error .conversionSyntax

end Cambio.Decimal
