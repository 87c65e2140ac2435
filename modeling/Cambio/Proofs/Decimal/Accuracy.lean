import Cambio.Proofs.Decimal.Exact

/-!
# How near the nearest decimal is

Rounding moves a value by half a unit of the lowest kept power of ten at most. Unless the result has
lost digits at the low end of the range, that is a small part of the value, so a product of rounded
values is near the product of the values.

## Main definitions

- `Decimal.IsNormal` — the nearest decimal to a value has the whole working precision
- `Decimal.IsNear` — a value is off another one by a small part of it

## Main statements

- `Decimal.abs_nearest_sub_le` — how far rounding moves a value
- `Decimal.IsNormal.isNear` — the nearest decimal is near, unless it has lost digits
- `Decimal.IsNear.abs_mul_sub_one_le`, `Decimal.IsNear.abs_mul_sub_le` — products of near values
- `Decimal.nearest_nearest` — a value that was rounded is kept as it is
- `Decimal.nearest_mul_zpow` — another power of ten for a value that is kept as it is
-/

namespace Cambio.Decimal

variable {q q' p p' r : ℚ} {j : ℤ}

/-! ## How far rounding moves a value -/

theorem abs_sub_roundEven_le (x : ℚ) : |x - roundEven x| ≤ 1 / 2 := by
  rcases isHalfEven_roundEven x with hless | ⟨hequal, -⟩
  · exact hless.le
  · exact hequal.le

theorem abs_nearest_sub_le (q : ℚ) : |nearest q - q| ≤ 10 ^ lowestExponent q / 2 := by
  have hround := abs_sub_roundEven_le (q / 10 ^ lowestExponent q)
  have hunit := ten_zpow_pos (lowestExponent q)
  rw [nearest]
  -- of the power of ten only the sign matters
  generalize (10 : ℚ) ^ lowestExponent q = unit at hround hunit
  calc |roundEven (q / unit) * unit - q|
      = |q / unit - roundEven (q / unit)| * unit := by
        rw [abs_sub_comm, ← abs_of_pos hunit, ← abs_mul, abs_of_pos hunit, sub_mul,
          div_mul_cancel₀ _ hunit.ne']
    _ ≤ 1 / 2 * unit := mul_le_mul_of_nonneg_right hround hunit.le
    _ = unit / 2 := by ring

/-- The lowest kept power of ten is the 28th digit of the value, or the lowest one of all. -/
theorem zpow_lowestExponent_le (hq : q ≠ 0) :
    (10 : ℚ) ^ lowestExponent q ≤ |q| / 10 ^ 27 ∨
      lowestExponent q = tinyExponent := by
  have hprecision : (precision : ℤ) = 28 := rfl
  rcases max_choice (Int.log 10 |q| + 1 - precision) tinyExponent with hlog | htiny
  · left
    have hpow : (10 : ℚ) ^ Int.log 10 |q| ≤ |q| :=
      Int.zpow_log_le_self (by decide) (abs_pos.mpr hq)
    have hsplit : Int.log 10 |q| + 1 - precision = Int.log 10 |q| - (27 : ℕ) := by omega
    rw [lowestExponent, hlog, hsplit, zpow_sub₀ (by norm_num), zpow_natCast]
    exact div_le_div_of_nonneg_right hpow (by positivity)
  · exact .inr htiny

/-! ## Values that are kept as they are -/

theorem abs_roundEven_le {x : ℚ} {bound : ℤ} (hx : |x| < bound) : |roundEven x| ≤ bound := by
  have hround := abs_sub_roundEven_le x
  have hmoved := abs_sub_abs_le_abs_sub (roundEven x : ℚ) x
  rw [abs_sub_comm] at hmoved
  have hbelow : (|roundEven x| : ℚ) < bound + 1 := by linarith
  exact_mod_cast Int.le_of_lt_add_one (by exact_mod_cast hbelow)

theorem lowestExponent_le {x : ℚ} (hx : x ≠ 0) (htiny : tinyExponent ≤ j)
    (hlow : |x| < 10 ^ (j + precision)) : lowestExponent x ≤ j := by
  have hlog : Int.log 10 |x| < j + precision := by
    rwa [← Int.lt_zpow_iff_log_lt (by decide) (abs_pos.mpr hx), Nat.cast_ofNat]
  rw [lowestExponent]
  omega

/-- A single digit is kept as it is, also at the lowest power of ten. -/
theorem nearest_zpow (hj : tinyExponent ≤ j) : nearest (10 ^ j) = 10 ^ j := by
  have hprecision : (precision : ℤ) = 28 := rfl
  have hpos := ten_zpow_pos j
  refine nearest_eq_self (n := 1) (e := j) (by rw [Int.cast_one, one_mul])
    (lowestExponent_le hpos.ne' hj ?_)
  rw [abs_of_pos hpos]
  exact zpow_lt_zpow_right₀ (by norm_num) (by omega)

/-- A value of less than half of the lowest unit is lost. -/
theorem nearest_eq_zero (hq : |q| < 10 ^ tinyExponent / 2) : nearest q = 0 := by
  by_cases hzero : q = 0
  · rw [hzero, nearest_zero]
  have hprecision : (precision : ℤ) = 28 := rfl
  have htiny := ten_zpow_pos tinyExponent
  have hlowest : lowestExponent q = tinyExponent := by
    refine le_antisymm (lowestExponent_le hzero (Int.le_refl _) ?_) (le_max_right _ _)
    exact (hq.trans (half_lt_self htiny)).trans_le
      (zpow_le_zpow_right₀ (by norm_num) (by omega))
  have hround : 0 = roundEven (q / 10 ^ tinyExponent) := by
    refine isHalfEven_iff.mp (.inl ?_)
    rw [Int.cast_zero, sub_zero, abs_div, abs_of_pos htiny, div_lt_iff₀ htiny]
    linarith
  rw [nearest, hlowest, ← hround, Int.cast_zero, zero_mul]

/-- Down to its lowest kept power of ten a value has the digits of the working precision at most. -/
theorem abs_div_lowestExponent_lt (q : ℚ) :
    |q / 10 ^ lowestExponent q| < ((10 ^ precision : ℤ) : ℚ) := by
  have hlog : Int.log 10 |q| + 1 ≤ lowestExponent q + precision := by
    rw [lowestExponent]
    omega
  have hpow := Int.lt_zpow_succ_log_self (b := 10) (by decide) |q|
  rw [abs_div, abs_of_pos (ten_zpow_pos _), div_lt_iff₀ (ten_zpow_pos _)]
  push_cast at hpow ⊢
  rw [← zpow_natCast, ← zpow_add₀ (by norm_num), add_comm (precision : ℤ)]
  exact hpow.trans_le (zpow_le_zpow_right₀ (by norm_num) hlog)

/-- The nearest decimal to a value is kept as it is. -/
theorem nearest_nearest (q : ℚ) : nearest (nearest q) = nearest q := by
  by_cases hq : q = 0
  · rw [hq, nearest_zero, nearest_zero]
  by_cases hzero : nearest q = 0
  · rw [hzero, nearest_zero]
  have htiny : tinyExponent ≤ lowestExponent q := le_max_right _ _
  have hform : nearest q = roundEven (q / 10 ^ lowestExponent q) * 10 ^ lowestExponent q := rfl
  have hbound := abs_roundEven_le (abs_div_lowestExponent_lt q)
  generalize roundEven (q / 10 ^ lowestExponent q) = n at hform hbound
  generalize lowestExponent q = e at hform htiny
  have habs : |nearest q| = |n| * 10 ^ e := by
    rw [hform, abs_mul, abs_of_pos (ten_zpow_pos e), Int.cast_abs]
  rcases hbound.lt_or_eq with hless | hequal
  · refine nearest_eq_self hform (lowestExponent_le hzero htiny ?_)
    have hless' : ((|n| : ℤ) : ℚ) < 10 ^ precision := by exact_mod_cast hless
    rw [habs, zpow_add₀ (by norm_num), mul_comm, zpow_natCast]
    exact mul_lt_mul_of_pos_left hless' (ten_zpow_pos e)
  · -- a value that is rounded up to a power of ten has one digit only
    obtain ⟨m, rfl⟩ : (10 : ℤ) ∣ n := by
      rw [← dvd_abs, hequal]
      exact dvd_pow_self 10 (by decide)
    have hform' : nearest q = m * 10 ^ (e + 1) := by
      rw [hform, zpow_add_one₀ (by norm_num), Int.cast_mul, Int.cast_ofNat]
      ring
    refine nearest_eq_self hform' (lowestExponent_le hzero (by omega) ?_)
    rw [habs, hequal, Int.cast_pow, Int.cast_ofNat, ← zpow_natCast, ← zpow_add₀ (by norm_num)]
    exact zpow_lt_zpow_right₀ (by norm_num) (by omega)

/-! ## Values that keep the working precision -/

/-- The nearest decimal to a value is not too large, and large enough for the whole working
    precision. -/
structure IsNormal (q : ℚ) : Prop where
  low : 10 ^ minExponent ≤ |nearest q|
  high : |nearest q| < tooLarge

/-- A nearest decimal that is far from both ends of the range. -/
theorem isNormal_of_between {n : ℕ} (hn : (n : ℤ) ≤ maxExponent) (hlow : 1 / 10 ^ n ≤ |nearest q|)
    (hhigh : |nearest q| ≤ 10 ^ n) : IsNormal q := by
  have hexponents : minExponent = -maxExponent := by decide
  constructor
  · rw [one_div, ← zpow_natCast, ← zpow_neg] at hlow
    exact (zpow_le_zpow_right₀ (by norm_num) (by omega)).trans hlow
  · rw [← zpow_natCast] at hhigh
    exact hhigh.trans_lt (zpow_lt_zpow_right₀ (by norm_num) (by omega))

/-- The part of a value by which another one near it may be off. -/
def accuracy : ℚ := 6 / 10 ^ 28

/-- A value is off another one by a small part of it at most. -/
def IsNear (p q : ℚ) : Prop :=
  |p - q| ≤ accuracy * q

theorem value_one : Decimal.one.value = 1 := by
  decide +kernel

theorem accuracy_nonneg : 0 ≤ accuracy := by
  rw [accuracy]
  norm_num

theorem isNear_refl (hq : 0 ≤ q) : IsNear q q := by
  rw [IsNear, sub_self, abs_zero]
  exact mul_nonneg accuracy_nonneg hq

theorem tinyExponent_eq : tinyExponent = minExponent - (27 : ℕ) := by
  decide

/-- The nearest decimal is near, unless it has lost digits. -/
theorem IsNormal.isNear (h : IsNormal q) (hq : 0 < q) : IsNear (nearest q) q := by
  have hmoved := abs_nearest_sub_le q
  have hdistance := abs_sub_abs_le_abs_sub (nearest q) q
  have hsplit := zpow_lowestExponent_le hq.ne'
  rw [abs_of_pos hq] at hdistance hsplit
  rw [IsNear, accuracy]
  rcases hsplit with hlog | htiny
  · linarith
  · -- at the lowest power of ten the result itself has 28 digits
    have hlow := h.low
    rw [htiny, tinyExponent_eq, zpow_sub₀ (by norm_num), zpow_natCast] at hmoved
    generalize (10 : ℚ) ^ minExponent = least at hlow hmoved
    linarith

/-! ## Products of near values -/

namespace IsNear

/-- A product of near values is off by twice the part, up to its square. -/
theorem abs_mul_sub_mul_le (h : IsNear p q) (h' : IsNear p' q') (hq : 0 < q) (hq' : 0 < q') :
    |p * p' - q * q'| ≤ (2 * accuracy + accuracy ^ 2) * (q * q') := by
  have hnonneg := accuracy_nonneg
  rw [IsNear] at h h'
  have hfactor : |p'| ≤ (1 + accuracy) * q' := by
    have hdistance := abs_sub_abs_le_abs_sub p' q'
    rw [abs_of_pos hq'] at hdistance
    linarith
  calc |p * p' - q * q'|
      = |(p - q) * p' + q * (p' - q')| := by ring_nf
    _ ≤ |p - q| * |p'| + q * |p' - q'| := by
        have htriangle := abs_add_le ((p - q) * p') (q * (p' - q'))
        rwa [abs_mul, abs_mul, abs_of_pos hq] at htriangle
    _ ≤ accuracy * q * ((1 + accuracy) * q') + q * (accuracy * q') := by gcongr
    _ = (2 * accuracy + accuracy ^ 2) * (q * q') := by ring

/-- Near values of a number and its inverse have a product near one. -/
theorem abs_mul_sub_one_le (h : IsNear p q) (h' : IsNear p' q') (hq : 0 < q) (hq' : 0 < q')
    (hinverse : q * q' = 1) : |p * p' - 1| ≤ 2 / 10 ^ 27 := by
  have hproduct := h.abs_mul_sub_mul_le h' hq hq'
  rw [hinverse, accuracy] at hproduct
  refine hproduct.trans ?_
  norm_num

/-- A product of near values is near a near value of the product. -/
theorem abs_mul_sub_le (h : IsNear p q) (h' : IsNear p' q') (hr : IsNear r (q * q')) (hq : 0 < q)
    (hq' : 0 < q') : |p * p' - r| ≤ 2 / 10 ^ 27 * r := by
  have hproduct := h.abs_mul_sub_mul_le h' hq hq'
  have hpos : 0 < q * q' := mul_pos hq hq'
  rw [IsNear] at hr
  have hbetween : |p * p' - r| ≤ |p * p' - q * q'| + |r - q * q'| := by
    rw [abs_sub_comm r]
    exact abs_sub_le _ _ _
  have hlow : q * q' - r ≤ |r - q * q'| := by
    rw [abs_sub_comm]
    exact le_abs_self _
  rw [accuracy] at hproduct hr
  norm_num at hproduct hr ⊢
  linarith

end IsNear

/-! ## Other powers of ten -/

/-- A value of at most a tenth of what is too large is not rounded up to that. -/
theorem abs_nearest_lt (hq : |q| ≤ tooLarge / 10) : |nearest q| < tooLarge := by
  have hlarge := tooLarge_pos
  by_cases hzero : q = 0
  · rw [hzero, nearest_zero, abs_zero]
    exact hlarge
  have hunit : (10 : ℚ) ^ lowestExponent q ≤ tooLarge / 10 := by
    rcases zpow_lowestExponent_le hzero with hlog | htiny
    · exact hlog.trans ((div_le_self (abs_nonneg q) (by norm_num)).trans hq)
    · have htenth : tooLarge / 10 = 10 ^ maxExponent := by
        rw [tooLarge, zpow_add_one₀ (by norm_num), mul_div_cancel_right₀ _ (by norm_num)]
      rw [htiny, htenth]
      exact zpow_le_zpow_right₀ (by norm_num) (by decide)
  have hmoved := abs_nearest_sub_le q
  have hdistance := abs_sub_abs_le_abs_sub (nearest q) q
  linarith

theorem log_mul_zpow (hq : 0 < q) (j : ℤ) : Int.log 10 (q * 10 ^ j) = Int.log 10 q + j := by
  have hiff (i : ℤ) : i ≤ Int.log 10 (q * 10 ^ j) ↔ i ≤ Int.log 10 q + j := by
    have hpow : ((10 : ℕ) : ℚ) ^ i = 10 ^ (i - j) * 10 ^ j := by
      rw [Nat.cast_ofNat, ← zpow_add₀ (by norm_num), sub_add_cancel]
    rw [← Int.zpow_le_iff_le_log (by decide) (mul_pos hq (ten_zpow_pos j)), hpow,
      mul_le_mul_iff_of_pos_right (ten_zpow_pos j), ← sub_le_iff_le_add,
      ← Int.zpow_le_iff_le_log (by decide) hq, Nat.cast_ofNat]
  exact Int.le_antisymm ((hiff _).mp (Int.le_refl _)) ((hiff _).mpr (Int.le_refl _))

/-- A value that is kept as it is stays so at another power of ten, unless it loses digits there. -/
theorem nearest_mul_zpow (hq : nearest q = q) (hlow : 10 ^ minExponent ≤ |q * 10 ^ j|) :
    nearest (q * 10 ^ j) = q * 10 ^ j := by
  have hprecision : (precision : ℤ) = 28 := rfl
  have hne : q ≠ 0 := by
    rintro rfl
    rw [zero_mul, abs_zero] at hlow
    exact absurd hlow (not_le.mpr (ten_zpow_pos _))
  have habs : |q * 10 ^ j| = |q| * 10 ^ j := by rw [abs_mul, abs_of_pos (ten_zpow_pos j)]
  have hlog := log_mul_zpow (abs_pos.mpr hne) j
  have hadjusted : minExponent ≤ Int.log 10 |q| + j := by
    rw [← hlog, ← Int.zpow_le_iff_le_log (by decide) (mul_pos (abs_pos.mpr hne) (ten_zpow_pos j)),
      ← habs]
    exact hlow
  -- the digits stay, and the lowest kept power of ten moves along with the value
  refine nearest_eq_self (n := roundEven (q / 10 ^ lowestExponent q)) (e := lowestExponent q + j)
    ?_ ?_
  · nth_rewrite 1 [← hq]
    rw [nearest, mul_assoc, ← zpow_add₀ (by norm_num)]
  · have htiny := tinyExponent_eq
    rw [lowestExponent, lowestExponent, habs, hlog]
    omega

end Cambio.Decimal
