import Cambio.Binary64.Basic

/-!
# Arithmetic on binary floating-point numbers

Sum, product, quotient and power, each the exact result rounded once, and rounding to a count of
decimal places. A zero result of a sum of opposite numbers is positive.

## Main definitions

- `Binary64.add`, `Binary64.mul`, `Binary64.div`, `Binary64.pow`
- `Binary64.power` — a power to any integer, or why there is none
- `Binary64.ratioOf` — the quotient of two integers
- `Binary64.roundPlaces` — the number nearest to a rounding in decimal places
-/

namespace Cambio.Binary64

/-- The sum of two numbers. -/
def add (x y : Binary64) : Binary64 :=
  match x, y with
  | .nan, _ | _, .nan => .nan
  | .infinite m, .infinite n => if m = n then .infinite m else .nan
  | .infinite m, _ | _, .infinite m => .infinite m
  | .finite m a e, .finite n b f =>
    let low := min e f
    let signed (negative : Bool) (mantissa : Nat) (exponent : Int) : Int :=
      let scaled : Int := (mantissa * Nat.pow 2 (exponent - low).toNat : Nat)
      if negative then -scaled else scaled
    let sum := signed m a e + signed n b f
    if sum = 0 then .finite (m && n) 0 lowestExponent
    else
      let (top, bottom) := ratio sum.natAbs low
      ofRatio (sum < 0) top bottom

/-- The product of two numbers. -/
def mul (x y : Binary64) : Binary64 :=
  match x, y with
  | .nan, _ | _, .nan => .nan
  | .finite m a e, .finite n b f =>
    let (top, bottom) := ratio (a * b) (e + f)
    ofRatio (m != n) top bottom
  | x, y => if x.isZero || y.isZero then .nan else .infinite (x.isNegative != y.isNegative)

/-- The quotient of two numbers. -/
def div (x y : Binary64) : Binary64 :=
  match x, y with
  | .nan, _ | _, .nan => .nan
  | .infinite _, .infinite _ => .nan
  | .infinite m, y => .infinite (m != y.isNegative)
  | x, .infinite n => .finite (x.isNegative != n) 0 lowestExponent
  | .finite m a e, .finite n b f =>
    if b = 0 then (if a = 0 then .nan else .infinite (m != n))
    else
      let (p, q) := ratio a e
      let (r, s) := ratio b f
      ofRatio (m != n) (p * s) (q * r)

/-- A power of a number to a natural exponent, rounded once. -/
def pow (x : Binary64) (n : Nat) : Binary64 :=
  if n = 0 then ofNat 1
  else
    match x with
    | .nan => .nan
    | .infinite m => .infinite (m && n % 2 == 1)
    | .finite m a e =>
      let (top, bottom) := ratio (Nat.pow a n) (e * n)
      ofRatio (m && n % 2 == 1) top bottom

/-- The reciprocal of a power of a number, rounded once; a zero has none. -/
def powReciprocal (x : Binary64) (n : Nat) : Binary64 :=
  match x with
  | .nan => .nan
  | .infinite m => .finite (m && n % 2 == 1) 0 lowestExponent
  | .finite m a e =>
    let (top, bottom) := ratio (Nat.pow a n) (e * n)
    if top = 0 then .infinite (m && n % 2 == 1) else ofRatio (m && n % 2 == 1) bottom top

/-- Why a power has no result. -/
inductive Excess where
  /-- The exponent is larger than every number. -/
  | exponent
  /-- The result is larger than every number. -/
  | result
  deriving DecidableEq, Repr

/-- The wording of an excess. -/
def Excess.message : Excess → String
  | .exponent => "int too large to convert to float"
  | .result => "(34, 'Numerical result out of range')"

/-- An exponent from which on a power is out of every range, unless it is a power of one. -/
def vastExponent : Nat := Nat.pow 2 20

/-- A power of a finite number from one on to an integer exponent. -/
def power (x : Binary64) (n : Int) : Except Excess Binary64 :=
  if !(ofInt n).isFinite then .error .exponent
  else if x = ofNat 1 then .ok x
  else if n < 0 then
    .ok (if vastExponent < n.natAbs then zero else x.powReciprocal n.natAbs)
  else if vastExponent < n.natAbs then .error .result
  else
    let y := x.pow n.natAbs
    if y.isFinite then .ok y else .error .result

/-- The quotient of an integer by a natural number, rounded once; a zero divisor gives zero. -/
def ratioOf (numerator : Int) (denominator : Nat) : Binary64 :=
  if denominator = 0 then zero else ofRatio (numerator < 0) numerator.natAbs denominator

/-- The number nearest to a rounding in decimal places, a half of which goes to even. -/
def roundPlaces (places : Nat) : Binary64 → Binary64
  | .finite negative m e =>
    let (top, bottom) := ratio m e
    ofRatio negative (halfEven (top * Nat.pow 10 places) bottom) (Nat.pow 10 places)
  | x => x

end Cambio.Binary64
