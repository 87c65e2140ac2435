import Cambio.Decimal.Rounding

/-!
# Arithmetic on decimals

Sum, difference, product and quotient at the working precision. Each computes the exact result,
or one that rounds like it, and rounds once. A sum and a product keep the lowest exponent that
their operands give them; an exact quotient keeps as few digits as it can.

## Main definitions

- `Decimal.add`, `Decimal.sub`, `Decimal.mul`, `Decimal.div`
-/

namespace Cambio.Decimal

/-- The result of an operation on an operand that is not a number: that operand, unless it
    signals. A diagnostic keeps as many digits as a coefficient. -/
def propagate (signaling negative : Bool) (diagnostic : Nat) : Except Signal Decimal :=
  if signaling then .error .invalidOperation
  else .ok (.nan false negative (diagnostic % Nat.pow 10 precision))

/-- The first operand that is not a number decides, and a signaling one before a quiet one. -/
def propagate? : Decimal → Decimal → Option (Except Signal Decimal)
  | .nan true m d, _ => some (propagate true m d)
  | _, .nan true m d => some (propagate true m d)
  | .nan false m d, _ => some (propagate false m d)
  | _, .nan false m d => some (propagate false m d)
  | _, _ => none

/-- Two magnitudes at one exponent. An addend that ends far below the last digit that can be
    kept only decides which way the sum rounds, so one unit just below stands for it. -/
def aligned (c : Nat) (e : Int) (d : Nat) (f : Int) : Nat × Nat × Int :=
  if e < f then
    let floor := f + min (-1) ((digitCount d : Int) - precision - 2)
    if c ≠ 0 ∧ d ≠ 0 ∧ e + digitCount c - 1 < floor then
      (1, d * Nat.pow 10 (f - floor).toNat, floor)
    else (c, d * Nat.pow 10 (f - e).toNat, e)
  else
    let floor := e + min (-1) ((digitCount c : Int) - precision - 2)
    if c ≠ 0 ∧ d ≠ 0 ∧ f + digitCount d - 1 < floor then
      (c * Nat.pow 10 (e - floor).toNat, 1, floor)
    else (c * Nat.pow 10 (e - f).toNat, d, f)

/-- A magnitude written at a lower exponent as far as the working precision can use it: the sum
    of that magnitude and a zero of the lower exponent. -/
def lowered (c : Nat) (e zeroExponent : Int) : Nat × Int :=
  let target := max (min e zeroExponent) (e - precision - 1)
  (c * Nat.pow 10 (e - target).toNat, target)

/-- The sum of two finite decimals. -/
def addFinite (m : Bool) (c : Nat) (e : Int) (n : Bool) (d : Nat) (f : Int) :
    Except Signal Decimal :=
  if c = 0 ∧ d = 0 then rounded (m && n) 0 (min e f)
  else if c = 0 then
    let (k, x) := lowered d f e
    rounded n k x
  else if d = 0 then
    let (k, x) := lowered c e f
    rounded m k x
  else
    let (a, b, x) := aligned c e d f
    if m = n then rounded m (a + b) x
    else if a = b then rounded false 0 x
    else if b < a then rounded m (a - b) x
    else rounded n (b - a) x

/-- The sum of two decimals. -/
def add (a b : Decimal) : Except Signal Decimal :=
  match propagate? a b with
  | some r => r
  | none =>
    match a, b with
    | .finite m c e, .finite n d f => addFinite m c e n d f
    | .infinite m, .infinite n => if m = n then .ok (.infinite m) else .error .invalidOperation
    | .infinite m, _ => .ok (.infinite m)
    | _, b => .ok b

/-- The decimal with the opposite sign. -/
def negated : Decimal → Decimal
  | .finite negative c e => .finite (!negative) c e
  | .infinite negative => .infinite (!negative)
  | d => d

/-- The difference of two decimals. -/
def sub (a b : Decimal) : Except Signal Decimal :=
  add a (negated b)

/-- The product of two decimals. -/
def mul (a b : Decimal) : Except Signal Decimal :=
  match propagate? a b with
  | some r => r
  | none =>
    match a, b with
    | .finite m c e, .finite n d f => rounded (m != n) (c * d) (e + f)
    | a, b =>
      if a.isZero || b.isZero then .error .invalidOperation
      else .ok (.infinite (a.isNegative != b.isNegative))

/-- Takes zeros off the end of a coefficient while the exponent is below `target`; `fuel` is the
    count of digits. -/
def trimZeros (target : Int) : Nat → Nat → Int → Nat × Int
  | 0, c, e => (c, e)
  | fuel + 1, c, e =>
    if e < target ∧ c % 10 = 0 then trimZeros target fuel (c / 10) (e + 1) else (c, e)

/-- The magnitude of the quotient of two finite decimals, the divisor not zero: more digits than
    the precision, the last of them neither 0 nor 5 unless the quotient is exact. -/
def quotient (c : Nat) (e : Int) (d : Nat) (f : Int) : Nat × Int :=
  let shift : Int := (digitCount d : Int) - digitCount c + precision + 1
  let exponent := e - f - shift
  let numerator := c * Nat.pow 10 shift.toNat
  let denominator := d * Nat.pow 10 (-shift).toNat
  let q := numerator / denominator
  if numerator % denominator = 0 then trimZeros (e - f) (digitCount q) q exponent
  else if q % 5 = 0 then (q + 1, exponent)
  else (q, exponent)

/-- The quotient of two decimals. -/
def div (a b : Decimal) : Except Signal Decimal :=
  match propagate? a b with
  | some r => r
  | none =>
    match a, b with
    | .finite m c e, .finite n d f =>
      if d = 0 then .error (if c = 0 then .divisionUndefined else .divisionByZero)
      else if c = 0 then rounded (m != n) 0 (e - f)
      else
        let (k, x) := quotient c e d f
        rounded (m != n) k x
    | .infinite _, .infinite _ => .error .invalidOperation
    | .infinite m, b => .ok (.infinite (m != b.isNegative))
    | a, b => .ok (.finite (a.isNegative != b.isNegative) 0 tinyExponent)

end Cambio.Decimal
