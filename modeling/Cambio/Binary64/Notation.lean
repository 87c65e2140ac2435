import Cambio.Binary64.Arithmetic
import Cambio.Decimal.Reader
import Cambio.Decimal.Printer

/-!
# Decimal notation of binary floating-point numbers

A number is written with the fewest decimal digits that read back as the same number, and of
those the nearest. Where a power of ten replaces positional notation, and how it is written, is
a choice of the place that shows the number.

## Main definitions

- `Binary64.parse?` — the number nearest to a decimal text
- `Binary64.shortest` — the fewest digits that read back, with their power of ten
- `Binary64.Style` — the choices of a notation, and `Binary64.display`, `Binary64.compact`
- `Binary64.write` — a number in a notation
-/

namespace Cambio.Binary64

/-- The number nearest to a text of basic characters: signed digits with a point and a power of
    ten, or a word for a special value. -/
def parse? (s : List Char) : Option Binary64 :=
  let (negative, body) := Decimal.splitSign s
  match Decimal.parseMagnitude body with
  | some (coefficient, exponent) => some (ofPowerOfTen negative coefficient exponent)
  | none =>
    let word := body.map Char.toLower
    if word = "inf".toList ∨ word = "infinity".toList then some (.infinite negative)
    else if word = "nan".toList then some .nan
    else none

/-- The power of ten of the leading digit of a positive ratio, found from an estimate that is at
    most one too low. -/
def leadingPower (top bottom : Nat) : Int :=
  let guess := ((top.log2 : Int) - bottom.log2 - 1) * 30103 / 100000
  let reaches (k : Int) : Bool := bottom * Nat.pow 10 k.toNat ≤ top * Nat.pow 10 (-k).toNat
  if reaches (guess + 1) then guess + 1 else if reaches guess then guess else guess - 1

/-- The nearer of the two neighbours of a ratio on the grid of multiples of `10 ^ step`. -/
def onGrid (top bottom : Nat) (step : Int) : Nat :=
  halfEven (top * Nat.pow 10 (-step).toNat) (bottom * Nat.pow 10 step.toNat)

/-- The decimal on a grid that reads back as the positive number `x`, if there is one: the
    nearest neighbour, or else the other one. -/
def readsBack? (x : Binary64) (top bottom : Nat) (step : Int) : Option (Nat × Int) :=
  let nearest := onGrid top bottom step
  let floor := top * Nat.pow 10 (-step).toNat / (bottom * Nat.pow 10 step.toNat)
  let other := if nearest = floor then floor + 1 else floor
  [nearest, other].findSome? fun c =>
    if ofPowerOfTen false c step = x then some (c, step) else none

/-- All the digits of a ratio whose denominator is a power of two, as a coefficient and a power
    of ten. -/
def exactDigits (mantissa : Nat) (exponent : Int) : Nat × Int :=
  if 0 ≤ exponent then (mantissa * Nat.pow 2 exponent.toNat, 0)
  else (mantissa * Nat.pow 5 (-exponent).toNat, exponent)

/-- Takes the zeros off the end of a coefficient; `fuel` is the count of its digits. -/
def dropZeros : Nat → Nat × Int → Nat × Int
  | 0, p => p
  | fuel + 1, (c, e) => if c % 10 = 0 ∧ c ≠ 0 then dropZeros fuel (c / 10, e + 1) else (c, e)

/-- The fewest digits that read back as a positive number, as a coefficient and a power of ten.
    Seventeen digits are enough for every number of the format. -/
def shortest (mantissa : Nat) (exponent : Int) : Nat × Int :=
  let (top, bottom) := ratio mantissa exponent
  let lead := leadingPower top bottom
  let x := Binary64.finite false mantissa exponent
  let found := (List.range 17).findSome? fun (n : Nat) => readsBack? x top bottom (lead - n)
  let (c, e) := found.getD (exactDigits mantissa exponent)
  dropZeros (Decimal.digitCount c) (c, e)

/-- The choices of a notation for floating-point numbers. -/
structure Style where
  /-- The lowest power of ten of a leading digit that is written positionally. -/
  lowest : Int
  /-- The power of ten of a leading digit from which on a power is written. -/
  beyond : Int
  /-- A positive power of ten is written with its sign. -/
  plusSign : Bool
  /-- The least count of digits of a power of ten. -/
  powerWidth : Nat
  /-- The words for infinity and for a failed result. -/
  infinityWord : List Char
  nanWord : List Char

/-- Numbers in messages and answers: powers of ten below -4 and from 16 on are written with a
    sign and two digits. -/
def display : Style where
  lowest := -4
  beyond := 16
  plusSign := true
  powerWidth := 2
  infinityWord := "inf".toList
  nanWord := "nan".toList

/-- Numbers in configuration files: powers of ten below -5 and from 16 on are written as short
    as they can be. -/
def compact : Style where
  lowest := -5
  beyond := 16
  plusSign := false
  powerWidth := 1
  infinityWord := "null".toList
  nanWord := "null".toList

/-- A power of ten after its letter. -/
def powerText (style : Style) (n : Int) : List Char :=
  let ds := Decimal.digits n.natAbs
  'e' :: (if n < 0 then ['-'] else if style.plusSign then ['+'] else []) ++
    List.replicate (style.powerWidth - ds.length) '0' ++ ds

/-- Digits and the power of ten of the last of them, in a notation. -/
def layout (style : Style) (coefficient : Nat) (exponent : Int) : List Char :=
  let ds := Decimal.digits coefficient
  let lead := Decimal.adjusted coefficient exponent
  if style.lowest ≤ lead ∧ lead < style.beyond then
    if 0 ≤ exponent then ds ++ List.replicate exponent.toNat '0' ++ ['.', '0']
    else Decimal.placePoint ds (-exponent).toNat
  else
    (match ds with
     | first :: second :: more => first :: '.' :: second :: more
     | ds => ds) ++ powerText style lead

/-- A number in a notation. -/
def write (style : Style) : Binary64 → List Char
  | .nan => style.nanWord
  | .infinite negative => Decimal.signText negative ++ style.infinityWord
  | .finite negative m e =>
    Decimal.signText negative ++
      (if m = 0 then ['0', '.', '0'] else
        let (c, x) := shortest m e
        layout style c x)

/-- A number as messages and answers show it. -/
def text (x : Binary64) : String :=
  String.ofList (write display x)

end Cambio.Binary64
