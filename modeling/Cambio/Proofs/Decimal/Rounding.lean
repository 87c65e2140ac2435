import Cambio.Decimal.Arithmetic
import Mathlib.Data.List.Basic

/-!
# Results of arithmetic

A product of finite decimals and a quotient of them can fail in one way only, if the divisor is not
zero: the result is too large. Otherwise it is finite.

## Main definitions

- `Decimal.kept` — the magnitude that rounding leaves
- `Decimal.IsBounded` — a result is finite or too large

## Main statements

- `Decimal.isBounded_mul`, `Decimal.isBounded_div` — products and quotients
-/

namespace Cambio.Decimal

/-- The magnitude that rounding leaves of one that is not zero. -/
def kept (coefficient : Nat) (exponent : Int) : Nat × Int :=
  let lowest := lowestKept coefficient exponent
  if exponent < lowest then
    let shorter := dropDigits coefficient (lowest - exponent).toNat
    if digitCount shorter > precision then (shorter / 10, lowest + 1) else (shorter, lowest)
  else (coefficient, exponent)

theorem rounded_of_ne_zero {negative : Bool} {coefficient : Nat} {exponent : Int}
    (h : coefficient ≠ 0) :
    rounded negative coefficient exponent =
      if maxExponent < adjusted (kept coefficient exponent).1 (kept coefficient exponent).2 then
        .error .overflow
      else
        .ok (.finite negative (kept coefficient exponent).1 (kept coefficient exponent).2) := by
  rw [rounded, if_neg h]
  rfl

/-- The result of an operation is finite, or there is none because it is too large. -/
inductive IsBounded : Except Signal Decimal → Prop
  | finite {d : Decimal} (h : d.isFinite = true) : IsBounded (.ok d)
  | overflow : IsBounded (.error .overflow)

theorem isBounded_rounded (negative : Bool) (coefficient : Nat) (exponent : Int) :
    IsBounded (rounded negative coefficient exponent) := by
  by_cases hzero : coefficient = 0
  · rw [rounded, if_pos hzero]
    exact .finite rfl
  · rw [rounded_of_ne_zero hzero]
    split
    · exact .overflow
    · exact .finite rfl

/-- A finite decimal has a sign, a coefficient and an exponent. -/
theorem eq_finite_of_isFinite {d : Decimal} (h : d.isFinite = true) :
    ∃ negative coefficient exponent, d = .finite negative coefficient exponent := by
  cases d with
  | finite negative coefficient exponent => exact ⟨negative, coefficient, exponent, rfl⟩
  | infinite | nan => cases h

theorem isFinite_of_isPositive {d : Decimal} (h : d.isPositive = true) : d.isFinite = true := by
  cases d with
  | finite => rfl
  | infinite | nan => cases h

theorem isZero_of_isPositive {d : Decimal} (h : d.isPositive = true) : d.isZero = false := by
  cases d with
  | finite negative coefficient exponent =>
    simp only [isPositive, Bool.and_eq_true] at h
    simpa [isZero] using h.2
  | infinite | nan => rfl

theorem mul_finite (m : Bool) (c : Nat) (e : Int) (n : Bool) (d : Nat) (f : Int) :
    mul (.finite m c e) (.finite n d f) = rounded (m != n) (c * d) (e + f) :=
  rfl

theorem isBounded_mul {a b : Decimal} (ha : a.isFinite = true) (hb : b.isFinite = true) :
    IsBounded (a.mul b) := by
  obtain ⟨m, c, e, rfl⟩ := eq_finite_of_isFinite ha
  obtain ⟨n, d, f, rfl⟩ := eq_finite_of_isFinite hb
  rw [mul_finite]
  exact isBounded_rounded _ _ _

theorem isBounded_div {a b : Decimal} (ha : a.isFinite = true) (hb : b.isFinite = true)
    (hzero : b.isZero = false) : IsBounded (a.div b) := by
  obtain ⟨m, c, e, rfl⟩ := eq_finite_of_isFinite ha
  obtain ⟨n, d, f, rfl⟩ := eq_finite_of_isFinite hb
  have hd : d ≠ 0 := by simpa [isZero] using hzero
  simp only [div, propagate?, if_neg hd]
  split
  · exact isBounded_rounded _ _ _
  · exact isBounded_rounded _ _ _

end Cambio.Decimal
