import Cambio.Proofs.Decimal.Rounding
import Mathlib.Algebra.Order.Field.Power
import Mathlib.Data.Rat.Cast.Order
import Mathlib.Tactic.FieldSimp
import Mathlib.Tactic.Linarith
import Mathlib.Tactic.NormNum
import Mathlib.Tactic.Positivity
import Mathlib.Tactic.Ring

/-!
# Values of decimals

A value can be written in many forms, which differ by zeros at the end of the coefficient. Two
forms of one value are found to be the same, and multiply to the same value.

## Main definitions

- `Decimal.magnitude`, `Decimal.value` — values as rational numbers
- `Decimal.SameResult` — results of one value

## Main statements

- `Decimal.sameValue_iff` — the comparison of forms is equality of values
- `Decimal.mul_congr` — a product depends on the values of its factors, whatever their forms
-/

namespace Cambio.Decimal

/-- The value of a magnitude. -/
def magnitude (coefficient : Nat) (exponent : Int) : ℚ :=
  coefficient * 10 ^ exponent

/-- The value of a finite decimal. -/
def value : Decimal → ℚ
  | .finite negative coefficient exponent =>
    if negative then -magnitude coefficient exponent else magnitude coefficient exponent
  | _ => 0

variable {c d k : Nat} {e f : Int}

/-! ## Zeros at the end of a coefficient -/

theorem digitCount_pos (n : Nat) : 0 < digitCount n :=
  Nat.length_toDigits_pos

theorem digitCount_le_iff {n : Nat} (hk : 0 < k) : digitCount n ≤ k ↔ n < 10 ^ k :=
  Nat.length_toDigits_le_iff (by decide) hk

theorem digitCount_mul_pow (hc : c ≠ 0) (k : Nat) : digitCount (c * 10 ^ k) = digitCount c + k := by
  have hpos := digitCount_pos c
  have hpow : 0 < 10 ^ k := Nat.pow_pos (by decide)
  refine Nat.le_antisymm ?_ ?_
  · rw [digitCount_le_iff (by omega), Nat.pow_add]
    exact Nat.mul_lt_mul_of_pos_right ((digitCount_le_iff hpos).mp (Nat.le_refl _)) hpow
  · -- one digit fewer would leave `c` below its own leading power of ten
    by_contra hless
    have hfew : digitCount (c * 10 ^ k) ≤ digitCount c - 1 + k := by omega
    obtain hone | hmany : digitCount c - 1 + k = 0 ∨ 0 < digitCount c - 1 + k := by omega
    · have := digitCount_pos (c * 10 ^ k)
      omega
    · rw [digitCount_le_iff hmany, Nat.pow_add] at hfew
      have hsmall : c < 10 ^ (digitCount c - 1) := Nat.lt_of_mul_lt_mul_right hfew
      obtain hzero | hpositive : digitCount c - 1 = 0 ∨ 0 < digitCount c - 1 := by omega
      · rw [hzero] at hsmall
        omega
      · rw [← digitCount_le_iff hpositive] at hsmall
        omega

theorem adjusted_scale (hc : c ≠ 0) (e : Int) (k : Nat) :
    adjusted (c * 10 ^ k) (e - k) = adjusted c e := by
  rw [adjusted, adjusted, digitCount_mul_pow hc]
  omega

theorem magnitude_scale (c : Nat) (e : Int) (k : Nat) :
    magnitude (c * 10 ^ k) (e - k) = magnitude c e := by
  rw [magnitude, magnitude, zpow_sub₀ (by norm_num), zpow_natCast]
  push_cast
  field_simp

/-- A magnitude at a lower exponent. -/
theorem magnitude_eq_lower (hef : e ≤ f) (d : Nat) :
    magnitude d f = magnitude (d * 10 ^ (f - e).toNat) e := by
  have h := magnitude_scale d f (f - e).toNat
  rw [Int.toNat_of_nonneg (by omega)] at h
  rw [← h]
  congr 1
  omega

theorem magnitude_inj : magnitude c e = magnitude d e ↔ c = d := by
  have hpow : (10 : ℚ) ^ e ≠ 0 := zpow_ne_zero e (by norm_num)
  rw [magnitude, magnitude, mul_left_inj' hpow, Nat.cast_inj]

theorem magnitude_nonneg (c : Nat) (e : Int) : 0 ≤ magnitude c e := by
  rw [magnitude]
  positivity

theorem magnitude_eq_zero_iff : magnitude c e = 0 ↔ c = 0 := by
  have hpow : (10 : ℚ) ^ e ≠ 0 := zpow_ne_zero e (by norm_num)
  rw [magnitude, mul_eq_zero, Nat.cast_eq_zero, or_iff_left hpow]

/-- A positive decimal has a value above zero. -/
theorem value_pos_of_isPositive {d : Decimal} (h : d.isPositive = true) : 0 < d.value := by
  cases d with
  | finite negative coefficient exponent =>
    obtain ⟨hsign, hzero⟩ : negative = false ∧ coefficient ≠ 0 := by
      simpa [isPositive] using h
    rw [value, hsign]
    exact lt_of_le_of_ne (magnitude_nonneg coefficient exponent)
      (Ne.symm fun hvalue => hzero (magnitude_eq_zero_iff.mp hvalue))
  | infinite | nan => cases h

theorem isPositive_iff_value_pos {d : Decimal} : d.isPositive = true ↔ 0 < d.value := by
  refine ⟨value_pos_of_isPositive, fun h => ?_⟩
  cases d with
  | finite negative coefficient exponent =>
    cases negative with
    | true =>
      rw [value, if_pos rfl] at h
      linarith [magnitude_nonneg coefficient exponent]
    | false =>
      rw [value, if_neg Bool.false_ne_true] at h
      have hzero : coefficient ≠ 0 := fun hzero => h.ne' (magnitude_eq_zero_iff.mpr hzero)
      simpa [isPositive] using hzero
  | infinite | nan => exact absurd h (lt_irrefl 0)

/-! ## The comparison of forms -/

/-- The adjusted exponents of one magnitude are equal in all its forms. -/
theorem adjusted_congr (hd : d ≠ 0) (hef : e ≤ f) (h : magnitude c e = magnitude d f) :
    adjusted c e = adjusted d f := by
  rw [magnitude_eq_lower hef d, magnitude_inj] at h
  rw [h]
  have hscale := adjusted_scale hd f (f - e).toNat
  rw [Int.toNat_of_nonneg (by omega)] at hscale
  rw [← hscale]
  congr 1
  omega

theorem sameMagnitude_iff : sameMagnitude c e d f = true ↔ magnitude c e = magnitude d f := by
  unfold sameMagnitude
  split
  · next hzero =>
    have hzero' : c = 0 ∨ d = 0 := by simpa using hzero
    rw [beq_iff_eq]
    rcases hzero' with rfl | rfl
    · rw [magnitude_eq_zero_iff.mpr rfl, eq_comm, eq_comm (a := (0 : ℚ)), magnitude_eq_zero_iff]
    · rw [magnitude_eq_zero_iff.mpr rfl, magnitude_eq_zero_iff]
  · next hzero =>
    obtain ⟨hc, hd⟩ : c ≠ 0 ∧ d ≠ 0 := by simpa using hzero
    split
    · next hadjusted =>
      refine iff_of_false Bool.false_ne_true fun h => hadjusted ?_
      rcases Int.le_total e f with hef | hfe
      · exact adjusted_congr hd hef h
      · exact (adjusted_congr hc hfe h.symm).symm
    · split
      · next hef =>
        rw [magnitude_eq_lower hef d, magnitude_inj, beq_iff_eq]
        rfl
      · next hef =>
        rw [magnitude_eq_lower (Int.le_of_not_le hef) c, magnitude_inj, beq_iff_eq]
        rfl

/-- The comparison of two finite decimals is equality of their values. -/
theorem sameValue_iff {a b : Decimal} (ha : a.isFinite = true) (hb : b.isFinite = true) :
    a.sameValue b = true ↔ a.value = b.value := by
  obtain ⟨m, c, e, rfl⟩ := eq_finite_of_isFinite ha
  obtain ⟨n, d, f, rfl⟩ := eq_finite_of_isFinite hb
  have hc := magnitude_nonneg c e
  have hd := magnitude_nonneg d f
  simp only [sameValue, Bool.and_eq_true, Bool.or_eq_true, beq_iff_eq, sameMagnitude_iff]
  rw [← magnitude_eq_zero_iff (c := c) (e := e)]
  cases m <;> cases n <;> simp only [value, Bool.false_eq_true, if_true, if_false, reduceCtorEq,
    true_or, and_true, false_or, neg_inj]
  · constructor
    · rintro ⟨h, hzero⟩
      rw [← h, hzero, neg_zero]
    · intro h
      constructor <;> linarith
  · constructor
    · rintro ⟨h, hzero⟩
      rw [← h, hzero, neg_zero]
    · intro h
      constructor <;> linarith

/-! ## Rounding -/

theorem halfEven_mul_mul {numerator denominator : Nat} (hk : 0 < k) :
    halfEven (numerator * k) (denominator * k) = halfEven numerator denominator := by
  have hless : 2 * (numerator % denominator * k) < denominator * k ↔
      2 * (numerator % denominator) < denominator := by
    rw [← Nat.mul_assoc]
    exact Nat.mul_lt_mul_right hk
  have hmore : denominator * k < 2 * (numerator % denominator * k) ↔
      denominator < 2 * (numerator % denominator) := by
    rw [← Nat.mul_assoc]
    exact Nat.mul_lt_mul_right hk
  simp only [halfEven, Nat.mul_div_mul_right _ _ hk, Nat.mul_mod_mul_right, hless, hmore]

theorem halfEven_mul_self {n denominator : Nat} (h : 0 < denominator) :
    halfEven (n * denominator) denominator = n := by
  simp only [halfEven, Nat.mul_div_cancel _ h, Nat.mul_mod_left]
  exact if_pos h

/-- Zeros at the end of a coefficient are dropped before anything else. -/
theorem dropDigits_scale (hc : c ≠ 0) (count k : Nat) :
    dropDigits (c * 10 ^ k) (count + k) = dropDigits c count := by
  have hpow : 0 < 10 ^ k := Nat.pow_pos (by decide)
  simp only [dropDigits, digitCount_mul_pow hc, Nat.add_lt_add_iff_right]
  split
  · rfl
  · change halfEven (c * 10 ^ k) (10 ^ (count + k)) = halfEven c (10 ^ count)
    rw [Nat.pow_add, halfEven_mul_mul hpow]

/-- If there are enough zeros, nothing else is dropped. -/
theorem dropDigits_zeros (hc : c ≠ 0) (kept dropped : Nat) :
    dropDigits (c * 10 ^ (kept + dropped)) dropped = c * 10 ^ kept := by
  have hpos := digitCount_pos c
  have hpow : 0 < 10 ^ dropped := Nat.pow_pos (by decide)
  rw [dropDigits, digitCount_mul_pow hc, if_neg (by omega)]
  change halfEven (c * 10 ^ (kept + dropped)) (10 ^ dropped) = _
  rw [Nat.pow_add, ← Nat.mul_assoc, halfEven_mul_self hpow]

theorem lowestKept_scale (hc : c ≠ 0) (e : Int) (k : Nat) :
    lowestKept (c * 10 ^ k) (e - k) = lowestKept c e := by
  rw [lowestKept, lowestKept, digitCount_mul_pow hc]
  congr 1
  omega

/-- What rounding keeps of a magnitude has the same value for all its forms: either it is the same
    form, or the magnitude has so few digits that it is kept as a whole. -/
theorem kept_scale (hc : c ≠ 0) (e : Int) (k : Nat) :
    kept (c * 10 ^ k) (e - k) = kept c e ∨
      kept c e = (c, e) ∧ ∃ j : Nat, kept (c * 10 ^ k) (e - k) = (c * 10 ^ j, e - j) := by
  have hlowest := lowestKept_scale hc e k
  obtain hdrop | hwhole := Int.lt_or_le e (lowestKept c e)
  · -- both forms lose digits, the longer one its zeros first
    left
    have hcount : (lowestKept c e - (e - k)).toNat = (lowestKept c e - e).toNat + k := by omega
    rw [kept, kept, hlowest, if_pos hdrop, if_pos (by omega), hcount, dropDigits_scale hc]
  · right
    refine ⟨by rw [kept, if_neg (by omega)], ?_⟩
    obtain hzeros | hkeep := Int.lt_or_le (e - k) (lowestKept c e)
    · -- the longer form loses some of its zeros and nothing else
      refine ⟨(e - lowestKept c e).toNat, ?_⟩
      have hsum : k = (e - lowestKept c e).toNat + (lowestKept c e - (e - k)).toNat := by omega
      have hdropped : dropDigits (c * 10 ^ k) (lowestKept c e - (e - k)).toNat =
          c * 10 ^ (e - lowestKept c e).toNat := by
        have hzeros' := dropDigits_zeros hc (e - lowestKept c e).toNat
          (lowestKept c e - (e - k)).toNat
        rwa [← hsum] at hzeros'
      have hshort : ¬ digitCount (c * 10 ^ (e - lowestKept c e).toNat) > precision := by
        rw [digitCount_mul_pow hc]
        have hlower : e + digitCount c - precision ≤ lowestKept c e := Int.le_max_left _ _
        omega
      rw [kept, hlowest, if_pos hzeros, hdropped]
      dsimp only
      rw [if_neg hshort, Int.toNat_of_nonneg (by omega)]
      congr 1
      omega
    · exact ⟨k, by rw [kept, hlowest, if_neg (by omega)]⟩

/-! ## Products -/

/-- Two results are finite and of one value, or there is none for one reason. -/
inductive SameResult : Except Signal Decimal → Except Signal Decimal → Prop
  | ok {a b : Decimal} (h : a.sameValue b = true) : SameResult (.ok a) (.ok b)
  | error (signal : Signal) : SameResult (.error signal) (.error signal)

theorem sameValue_refl {a : Decimal} (h : a.isFinite = true) : a.sameValue a = true :=
  (sameValue_iff h h).mpr rfl

theorem isFinite_eq_of_sameValue {a b : Decimal} (h : a.sameValue b = true) :
    a.isFinite = b.isFinite := by
  cases a <;> cases b <;> simp_all [sameValue, isFinite]

theorem sameValue_symm {a b : Decimal} (ha : a.isFinite = true) (h : a.sameValue b = true) :
    b.sameValue a = true := by
  have hb : b.isFinite = true := (isFinite_eq_of_sameValue h).symm.trans ha
  rw [sameValue_iff ha hb] at h
  rw [sameValue_iff hb ha, h]

theorem sameValue_trans {a b c : Decimal} (hb : b.isFinite = true) (hab : a.sameValue b = true)
    (hbc : b.sameValue c = true) : a.sameValue c = true := by
  have ha : a.isFinite = true := (isFinite_eq_of_sameValue hab).trans hb
  have hc : c.isFinite = true := (isFinite_eq_of_sameValue hbc).symm.trans hb
  rw [sameValue_iff ha hb] at hab
  rw [sameValue_iff hb hc] at hbc
  rw [sameValue_iff ha hc, hab, hbc]

theorem sameValue_zero (m n : Bool) (e f : Int) :
    (finite m 0 e).sameValue (finite n 0 f) = true := by
  simp [sameValue, sameMagnitude]

theorem sameValue_scale (negative : Bool) (c : Nat) (e : Int) (k : Nat) :
    (finite negative (c * 10 ^ k) (e - k)).sameValue (finite negative c e) = true := by
  rw [sameValue_iff rfl rfl, value, value, magnitude_scale]

/-- Rounding brings all forms of a magnitude to one value. -/
theorem rounded_scale (negative : Bool) (c : Nat) (e : Int) (k : Nat) :
    SameResult (rounded negative (c * 10 ^ k) (e - k)) (rounded negative c e) := by
  by_cases hc : c = 0
  · subst hc
    rw [Nat.zero_mul, rounded, rounded, if_pos rfl, if_pos rfl]
    exact .ok (sameValue_zero _ _ _ _)
  · have hscaled : c * 10 ^ k ≠ 0 := Nat.mul_ne_zero hc (Nat.pow_pos (by decide)).ne'
    rw [rounded_of_ne_zero hc, rounded_of_ne_zero hscaled]
    rcases kept_scale hc e k with hsame | ⟨hwhole, j, hzeros⟩
    · rw [hsame]
      split
      · exact .error _
      · exact .ok (sameValue_refl rfl)
    · rw [hwhole, hzeros]
      simp only [adjusted_scale hc]
      split
      · exact .error _
      · exact .ok (sameValue_scale _ _ _ _)

theorem SameResult.symm {x y : Except Signal Decimal} (hx : IsBounded x) (h : SameResult x y) :
    SameResult y x := by
  cases h with
  | ok h =>
    obtain ⟨ha⟩ := hx
    exact .ok (sameValue_symm ha h)
  | error signal => exact .error signal

/-- Of two forms of a value other than zero, one has zeros that the other lacks. -/
theorem eq_scale_of_sameValue {m n : Bool} (hc : c ≠ 0) (hef : e ≤ f)
    (h : (finite m c e).sameValue (finite n d f) = true) :
    m = n ∧ ∃ k : Nat, c = d * 10 ^ k ∧ e = f - k := by
  simp only [sameValue, Bool.and_eq_true, Bool.or_eq_true, beq_iff_eq, sameMagnitude_iff] at h
  obtain ⟨hmagnitude, hsign⟩ := h
  rw [magnitude_eq_lower hef d, magnitude_inj] at hmagnitude
  exact ⟨hsign.resolve_right hc, (f - e).toNat, hmagnitude, by omega⟩

theorem eq_zero_iff_of_sameValue {m n : Bool}
    (h : (finite m c e).sameValue (finite n d f) = true) : c = 0 ↔ d = 0 := by
  rw [← magnitude_eq_zero_iff (e := e), ← magnitude_eq_zero_iff (e := f)]
  simp only [sameValue, Bool.and_eq_true, sameMagnitude_iff] at h
  rw [h.1]

theorem isZero_eq_of_sameValue {a b : Decimal} (ha : a.isFinite = true)
    (h : a.sameValue b = true) : a.isZero = b.isZero := by
  have hb : b.isFinite = true := (isFinite_eq_of_sameValue h).symm.trans ha
  obtain ⟨m, c, e, rfl⟩ := eq_finite_of_isFinite ha
  obtain ⟨n, d, f, rfl⟩ := eq_finite_of_isFinite hb
  rw [Bool.eq_iff_iff, isZero, isZero, beq_iff_eq, beq_iff_eq]
  exact eq_zero_iff_of_sameValue h

theorem mul_congr_of_le {m n s : Bool} {x : Nat} {y : Int} (hc : c ≠ 0) (hef : e ≤ f)
    (h : (finite m c e).sameValue (finite n d f) = true) :
    SameResult ((finite m c e).mul (finite s x y)) ((finite n d f).mul (finite s x y)) := by
  obtain ⟨rfl, k, rfl, rfl⟩ := eq_scale_of_sameValue hc hef h
  have hproduct : d * 10 ^ k * x = d * x * 10 ^ k := by ring
  have hexponent : f - k + y = f + y - k := by ring
  rw [mul_finite, mul_finite, hproduct, hexponent]
  exact rounded_scale _ _ _ _

/-- A product depends on the value of a factor, whatever its form. -/
theorem mul_congr {a b r : Decimal} (ha : a.isFinite = true) (hr : r.isFinite = true)
    (h : a.sameValue b = true) : SameResult (a.mul r) (b.mul r) := by
  have hb : b.isFinite = true := (isFinite_eq_of_sameValue h).symm.trans ha
  obtain ⟨m, c, e, rfl⟩ := eq_finite_of_isFinite ha
  obtain ⟨n, d, f, rfl⟩ := eq_finite_of_isFinite hb
  obtain ⟨s, x, y, rfl⟩ := eq_finite_of_isFinite hr
  have hboth : c = 0 ↔ d = 0 := eq_zero_iff_of_sameValue h
  by_cases hc : c = 0
  · have hd : d = 0 := hboth.mp hc
    subst hc hd
    rw [mul_finite, mul_finite, Nat.zero_mul, rounded, rounded, if_pos rfl, if_pos rfl]
    exact .ok (sameValue_zero _ _ _ _)
  · have hd : d ≠ 0 := fun hd => hc (hboth.mpr hd)
    rcases Int.le_total e f with hef | hfe
    · exact mul_congr_of_le hc hef h
    · exact (mul_congr_of_le hd hfe (sameValue_symm rfl h)).symm (isBounded_mul rfl rfl)

end Cambio.Decimal
