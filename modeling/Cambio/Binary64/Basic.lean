import Cambio.Decimal.Rounding

/-!
# Binary floating-point numbers

The numbers of the 64-bit binary format: 53 significant bits, exponents of two from -1074 to
971, signed zeros, two infinities and one value that is not a number. Every operation computes
the exact ratio of two natural numbers and rounds it once, to the nearest, a half to even.

## Main definitions

- `Binary64` — the numbers
- `Binary64.ofRatio` — the nearest number to a ratio
- `Binary64.magnitude` — the exact ratio that a finite number stands for
- `Binary64.lt`, `Binary64.le` — the order, under which a failed result compares with nothing
-/

namespace Cambio

/-- A number of the 64-bit binary format: `mantissa * 2 ^ exponent` with a sign, or a special
    value. A mantissa has 53 bits, or fewer at the lowest exponent. -/
inductive Binary64 where
  | finite (negative : Bool) (mantissa : Nat) (exponent : Int)
  | infinite (negative : Bool)
  | nan
  deriving DecidableEq, Repr

namespace Binary64

/-- The lowest exponent of two. -/
def lowestExponent : Int := -1074

/-- The highest exponent of two of a full mantissa. -/
def highestExponent : Int := 971

/-- Zero. -/
def zero : Binary64 := .finite false 0 lowestExponent

instance : Inhabited Binary64 := ⟨zero⟩

/-- The exponent that leaves 53 bits of a ratio before the point, or the lowest exponent. -/
def exponentOf (numerator denominator : Nat) : Int :=
  let guess : Int := (numerator.log2 : Int) - denominator.log2 - 53
  let scaled :=
    numerator * Nat.pow 2 (-guess).toNat / (denominator * Nat.pow 2 guess.toNat)
  max (if Nat.pow 2 53 ≤ scaled then guess + 1 else guess) lowestExponent

/-- The nearest number to the ratio of two natural numbers, the second not zero, a half rounded
    to an even mantissa. -/
def ofRatio (negative : Bool) (numerator denominator : Nat) : Binary64 :=
  if numerator = 0 then .finite negative 0 lowestExponent
  else
    let e := exponentOf numerator denominator
    let m := halfEven (numerator * Nat.pow 2 (-e).toNat) (denominator * Nat.pow 2 e.toNat)
    let (m, e) := if m = Nat.pow 2 53 then (Nat.pow 2 52, e + 1) else (m, e)
    if highestExponent < e then .infinite negative else .finite negative m e

/-- The ratio that a mantissa and an exponent of two stand for. -/
def ratio (mantissa : Nat) (exponent : Int) : Nat × Nat :=
  (mantissa * Nat.pow 2 exponent.toNat, Nat.pow 2 (-exponent).toNat)

/-- The magnitude of a finite number as a ratio. -/
def magnitude : Binary64 → Nat × Nat
  | .finite _ m e => ratio m e
  | _ => (0, 1)

/-- The sign of a number; a zero has one too. -/
def isNegative : Binary64 → Bool
  | .finite negative _ _ => negative
  | .infinite negative => negative
  | .nan => false

/-- A number is finite when it is neither infinite nor a failed result. -/
def isFinite : Binary64 → Bool
  | .finite .. => true
  | _ => false

/-- A number is zero, of either sign. -/
def isZero : Binary64 → Bool
  | .finite _ m _ => m == 0
  | _ => false

/-- The nearest number to a natural number. -/
def ofNat (n : Nat) : Binary64 :=
  ofRatio false n 1

/-- The nearest number to an integer. -/
def ofInt (n : Int) : Binary64 :=
  ofRatio (n < 0) n.natAbs 1

/-- The nearest number to a signed coefficient with a power of ten. Powers beyond the range of
    the format are not computed. -/
def ofPowerOfTen (negative : Bool) (coefficient : Nat) (exponent : Int) : Binary64 :=
  if coefficient = 0 then .finite negative 0 lowestExponent
  else if 400 < Decimal.adjusted coefficient exponent then .infinite negative
  else if Decimal.adjusted coefficient exponent < -400 then .finite negative 0 lowestExponent
  else ofRatio negative (coefficient * Nat.pow 10 exponent.toNat) (Nat.pow 10 (-exponent).toNat)

/-- The nearest number to a decimal. -/
def ofDecimal : Decimal → Binary64
  | .finite negative coefficient exponent => ofPowerOfTen negative coefficient exponent
  | .infinite negative => .infinite negative
  | .nan .. => .nan

/-- The value of a finite number as a signed numerator over a power of two; other values have
    none. -/
def signedRatio? : Binary64 → Option (Int × Nat)
  | .finite negative m e =>
    let (n, d) := ratio m e
    some (if negative then -(n : Int) else n, d)
  | _ => none

/-- A number is below another. -/
def lt (x y : Binary64) : Bool :=
  match x, y with
  | .nan, _ | _, .nan => false
  | .infinite m, .infinite n => m && !n
  | .infinite m, _ => m
  | _, .infinite n => !n
  | x, y =>
    match x.signedRatio?, y.signedRatio? with
    | some (a, b), some (c, d) => decide (a * d < c * b)
    | _, _ => false

/-- A number is below another or equal to it; zeros of both signs are equal. -/
def le (x y : Binary64) : Bool :=
  match x, y with
  | .nan, _ | _, .nan => false
  | x, y => !lt y x

end Binary64

end Cambio
