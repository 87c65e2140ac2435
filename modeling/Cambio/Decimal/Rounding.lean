import Cambio.Decimal.Basic

/-!
# Rounding to the working precision

Arithmetic keeps 28 significant digits, rounds a half to the even neighbour, and allows leading
powers of ten between -999999 and 999999. Results below that range lose digits instead; results
above it are refused.

## Main definitions

- `halfEven` — a quotient of natural numbers, rounded to the nearest, a half to even
- `Decimal.Signal` — the reasons for which an operation has no result
- `Decimal.rounded` — a signed magnitude brought to the working precision
-/

namespace Cambio

/-- The quotient of two natural numbers rounded to the nearest natural number, and a half to the
    even one. -/
def halfEven (numerator denominator : Nat) : Nat :=
  let quotient := numerator / denominator
  let twice := 2 * (numerator % denominator)
  if twice < denominator then quotient
  else if denominator < twice then quotient + 1
  else if quotient % 2 = 0 then quotient
  else quotient + 1

namespace Decimal

/-- The significant digits that arithmetic keeps. -/
def precision : Nat := 28

/-- The highest power of ten of a leading digit. -/
def maxExponent : Int := 999999

/-- The lowest power of ten of a leading digit with full precision. -/
def minExponent : Int := -999999

/-- The lowest power of ten that a result keeps. -/
def tinyExponent : Int := minExponent - precision + 1

/-- The reasons for which an operation on decimals has no result. -/
inductive Signal where
  | invalidOperation
  | conversionSyntax
  | divisionUndefined
  | divisionByZero
  | overflow
  deriving DecidableEq, Repr

/-- The wording of a signal. -/
def Signal.message : Signal → String
  | .invalidOperation => "[<class 'decimal.InvalidOperation'>]"
  | .conversionSyntax => "[<class 'decimal.ConversionSyntax'>]"
  | .divisionUndefined => "[<class 'decimal.DivisionUndefined'>]"
  | .divisionByZero => "[<class 'decimal.DivisionByZero'>]"
  | .overflow => "[<class 'decimal.Overflow'>]"

/-- Divides a coefficient by a power of ten, rounding a half to even. A divisor with more digits
    than the coefficient leaves nothing, so it is not computed. -/
def dropDigits (coefficient count : Nat) : Nat :=
  if digitCount coefficient < count then 0 else halfEven coefficient (Nat.pow 10 count)

/-- The lowest power of ten that a magnitude keeps at the working precision. -/
def lowestKept (coefficient : Nat) (exponent : Int) : Int :=
  max (exponent + digitCount coefficient - precision) tinyExponent

/-- A signed magnitude at the working precision. -/
def rounded (negative : Bool) (coefficient : Nat) (exponent : Int) : Except Signal Decimal :=
  if coefficient = 0 then
    .ok (.finite negative 0 (min (max exponent tinyExponent) maxExponent))
  else
    let lowest := lowestKept coefficient exponent
    let (c, e) :=
      if exponent < lowest then
        let kept := dropDigits coefficient (lowest - exponent).toNat
        -- rounding up may carry into one digit more than the precision
        if digitCount kept > precision then (kept / 10, lowest + 1) else (kept, lowest)
      else (coefficient, exponent)
    if maxExponent < adjusted c e then .error .overflow else .ok (.finite negative c e)

end Decimal

end Cambio
