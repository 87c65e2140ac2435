/-!
# Decimal numbers

A decimal keeps the digits it was written with: a sign, a coefficient and a power of ten, so
that one half written `0.50` differs in form, though not in value, from `0.5`. Besides the
finite numbers there are two infinities and the results that are not a number, which may carry
a diagnostic and may be signaling.

## Main definitions

- `Decimal` — the numbers
- `Decimal.sameValue` — equality of values, whatever the form
- `Decimal.expanded` — the same value with no power of ten above the units
-/

namespace Cambio

/-- A decimal number: `coefficient * 10 ^ exponent` with a sign, or a special value. -/
inductive Decimal where
  | finite (negative : Bool) (coefficient : Nat) (exponent : Int)
  | infinite (negative : Bool)
  | nan (signaling negative : Bool) (diagnostic : Nat)
  deriving DecidableEq, Repr

namespace Decimal

instance : Inhabited Decimal := ⟨.finite false 0 0⟩

/-- The decimal of a natural number. -/
def ofNat (n : Nat) : Decimal :=
  .finite false n 0

/-- The decimal of an integer. -/
def ofInt (n : Int) : Decimal :=
  .finite (n < 0) n.natAbs 0

/-- The number zero, written without a fraction. -/
def zero : Decimal := ofNat 0

/-- The number one, written without a fraction. -/
def one : Decimal := ofNat 1

/-- The decimal digits of a number, most significant first; zero has one digit. -/
def digits (n : Nat) : List Char :=
  Nat.toDigits 10 n

/-- The count of decimal digits of a number; zero has one digit. -/
def digitCount (n : Nat) : Nat :=
  (digits n).length

/-- A decimal is finite when it is neither infinite nor a failed result. -/
def isFinite : Decimal → Bool
  | .finite .. => true
  | _ => false

/-- The sign of a decimal; zeros and failed results have one too. -/
def isNegative : Decimal → Bool
  | .finite negative _ _ => negative
  | .infinite negative => negative
  | .nan _ negative _ => negative

/-- A decimal is zero when its coefficient is, whatever its sign and exponent. -/
def isZero : Decimal → Bool
  | .finite _ coefficient _ => coefficient == 0
  | _ => false

/-- A decimal is a signaling result that is not a number. -/
def isSignaling : Decimal → Bool
  | .nan signaling _ _ => signaling
  | _ => false

/-- A decimal is finite and above zero. -/
def isPositive : Decimal → Bool
  | .finite negative coefficient _ => !negative && coefficient != 0
  | _ => false

/-- The power of ten of the leading digit. -/
def adjusted (coefficient : Nat) (exponent : Int) : Int :=
  exponent + digitCount coefficient - 1

/-- The magnitudes `c * 10 ^ e` and `d * 10 ^ f` are equal. Only magnitudes with the same
    leading power of ten are brought to one exponent. -/
def sameMagnitude (c : Nat) (e : Int) (d : Nat) (f : Int) : Bool :=
  if c == 0 || d == 0 then c == d
  else if adjusted c e ≠ adjusted d f then false
  else if e ≤ f then c == d * Nat.pow 10 (f - e).toNat
  else c * Nat.pow 10 (e - f).toNat == d

/-- Two decimals have the same value. A failed result has no value, zeros of both signs are
    the same. -/
def sameValue : Decimal → Decimal → Bool
  | .finite m c e, .finite n d f => sameMagnitude c e d f && (m == n || c == 0)
  | .infinite m, .infinite n => m == n
  | _, _ => false

/-- The same value with no power of ten above the units: the form read back from positional
    notation. -/
def expanded : Decimal → Decimal
  | .finite negative coefficient exponent =>
    if 0 < exponent then .finite negative (coefficient * Nat.pow 10 exponent.toNat) 0
    else .finite negative coefficient exponent
  | d => d

end Decimal

end Cambio
