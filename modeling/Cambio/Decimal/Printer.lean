import Cambio.Decimal.Rounding

/-!
# Writing decimals

Two notations. The scientific one keeps coefficient and exponent: it is positional while the
point stays within six places left of the first digit and right of no digit, and otherwise has
one digit before the point and a power of ten. The fixed one is always positional and, where a
count of places is asked for, rounds a half to even.

## Main definitions

- `Decimal.scientific` — the notation that keeps every digit and the exponent
- `Decimal.fixed` — positional notation with the digits of the decimal
- `Decimal.fixedPlaces` — positional notation with a given count of places
- `Decimal.hasPlaces` — the decimals that can be written with a given count of places
-/

namespace Cambio.Decimal

/-- The sign of a written number; a plus is not written. -/
def signText (negative : Bool) : List Char :=
  if negative then ['-'] else []

/-- A special value in words. -/
def specialText : Decimal → List Char
  | .nan signaling negative diagnostic =>
    signText negative ++ (if signaling then "sNaN" else "NaN").toList ++
      (if diagnostic = 0 then [] else digits diagnostic)
  | d => signText d.isNegative ++ "Infinity".toList

/-- Digits with a point before the last `places` of them, and zeros where there are too few. -/
def placePoint (ds : List Char) (places : Nat) : List Char :=
  if places = 0 then ds
  else
    let padded := List.replicate (places + 1 - ds.length) '0' ++ ds
    padded.take (padded.length - places) ++ '.' :: padded.drop (padded.length - places)

/-- A magnitude in positional notation: zeros fill the places up to the units. -/
def positional (coefficient : Nat) (exponent : Int) : List Char :=
  if 0 ≤ exponent then
    if coefficient = 0 then ['0']
    else digits coefficient ++ List.replicate exponent.toNat '0'
  else placePoint (digits coefficient) (-exponent).toNat

/-- A power of ten with its sign. -/
def powerText (n : Int) : List Char :=
  'E' :: (if n < 0 then '-' else '+') :: digits n.natAbs

/-- A decimal in the notation that keeps its digits and its exponent. -/
def scientific : Decimal → List Char
  | .finite negative coefficient exponent =>
    let lead := adjusted coefficient exponent
    signText negative ++
      (if exponent ≤ 0 ∧ -6 ≤ lead then placePoint (digits coefficient) (-exponent).toNat
       else
        (match digits coefficient with
         | first :: second :: more => first :: '.' :: second :: more
         | ds => ds) ++ powerText lead)
  | d => specialText d

/-- A decimal in positional notation with all its digits. -/
def fixed : Decimal → List Char
  | .finite negative coefficient exponent => signText negative ++ positional coefficient exponent
  | d => specialText d

/-- A decimal in positional notation with a given count of places, a half rounded to even. -/
def fixedPlaces (places : Nat) : Decimal → List Char
  | .finite negative coefficient exponent =>
    let surplus := -exponent - places
    signText negative ++
      (if 0 < surplus then
        placePoint (digits (dropDigits coefficient surplus.toNat)) places
       else if coefficient = 0 then placePoint ['0'] places
       else placePoint (digits coefficient ++ List.replicate (-surplus).toNat '0') places)
  | d => specialText d

/-- The most digits that positional notation has room for. -/
def mostDigits : Int :=
  1000000000000000000

/-- A decimal can be written with a given count of places: there is room for its digits and for the
    zeros that fill them up to the last place. -/
def hasPlaces (places : Nat) : Decimal → Bool
  | .finite _ coefficient exponent =>
    coefficient == 0 || decide (digitCount coefficient + exponent + places ≤ mostDigits)
  | _ => true

/-- The scientific notation as a string. -/
def text (d : Decimal) : String :=
  String.ofList (scientific d)

/-- The positional notation as a string. -/
def fixedText (d : Decimal) : String :=
  String.ofList (fixed d)

end Cambio.Decimal
