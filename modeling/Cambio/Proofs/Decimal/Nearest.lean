import Cambio.Proofs.Decimal.Value
import Mathlib.Algebra.Order.Floor.Ring
import Mathlib.Data.Int.Log
import Mathlib.Data.Rat.Floor
import Mathlib.Tactic.NormNum.Abs

/-!
# The nearest decimal

Which value a result has is told without reference to how it is computed: the multiple of a power of
ten that is nearest to the exact value, and of two that are equally near the even one. The power of
ten leaves as many digits as the working precision has.

## Main definitions

- `Decimal.IsHalfEven` — a whole number is nearest to a rational number, a half goes to the even one
- `Decimal.lowestExponent` — the lowest power of ten that a value keeps
- `Decimal.nearest` — a value at the working precision

## Main statements

- `Decimal.IsHalfEven.unique` — there is only one nearest number
- `Decimal.nearest_neg` — rounding treats both signs alike
- `Decimal.nearest_congr` — values that no half of a kept unit separates are rounded to the same
-/

namespace Cambio.Decimal

/-! ## Whole numbers -/

/-- A whole number is the nearest one, or one of two nearest and even. -/
def IsHalfEven (x : ℚ) (n : ℤ) : Prop :=
  |x - n| < 1 / 2 ∨ |x - n| = 1 / 2 ∧ Even n

/-- The nearest whole number, and the even one of two. -/
def roundEven (x : ℚ) : ℤ :=
  if 2 * Int.fract x < 1 ∨ 2 * Int.fract x = 1 ∧ Even ⌊x⌋ then ⌊x⌋ else ⌊x⌋ + 1

variable {x y q : ℚ} {m n : ℤ}

theorem IsHalfEven.unique (hm : IsHalfEven x m) (hn : IsHalfEven x n) : m = n := by
  have hdistance : |(m : ℚ) - n| ≤ |x - m| + |x - n| := by
    have h := abs_add_le ((m : ℚ) - x) (x - n)
    rwa [abs_sub_comm (m : ℚ) x, sub_add_sub_cancel] at h
  have hle : |x - m| ≤ 1 / 2 ∧ |x - n| ≤ 1 / 2 := by
    constructor
    · rcases hm with h | ⟨h, -⟩ <;> linarith
    · rcases hn with h | ⟨h, -⟩ <;> linarith
  have hone : |m - n| ≤ 1 := by
    have h : |(m : ℚ) - n| ≤ 1 := by linarith
    exact_mod_cast h
  rcases hm with h | ⟨-, heven⟩
  · have hless : |(m : ℚ) - n| < 1 := by linarith
    have hzero : |m - n| < 1 := by exact_mod_cast hless
    rw [abs_lt] at hzero
    omega
  · rcases hn with h | ⟨-, heven'⟩
    · have hless : |(m : ℚ) - n| < 1 := by linarith
      have hzero : |m - n| < 1 := by exact_mod_cast hless
      rw [abs_lt] at hzero
      omega
    · -- two even numbers with distance one at most
      obtain ⟨k, hk⟩ := heven
      obtain ⟨l, hl⟩ := heven'
      rw [abs_le] at hone
      omega

theorem IsHalfEven.neg (h : IsHalfEven x n) : IsHalfEven (-x) (-n) := by
  have habs : |-x - ((-n : ℤ) : ℚ)| = |x - n| := by
    rw [Int.cast_neg, ← abs_neg]
    congr 1
    ring
  rw [IsHalfEven, habs, even_neg]
  exact h

theorem isHalfEven_intCast (n : ℤ) : IsHalfEven n n :=
  .inl (by rw [sub_self, abs_zero]; norm_num)

theorem isHalfEven_roundEven (x : ℚ) : IsHalfEven x (roundEven x) := by
  have hfract : Int.fract x = x - ⌊x⌋ := rfl
  have hnonneg := Int.fract_nonneg x
  have hless := Int.fract_lt_one x
  unfold roundEven
  split
  · next h =>
    rw [IsHalfEven, ← hfract, abs_of_nonneg hnonneg]
    rcases h with h | ⟨h, heven⟩
    · exact .inl (by linarith)
    · exact .inr ⟨by linarith, heven⟩
  · next h =>
    have hupper : x - ((⌊x⌋ + 1 : ℤ) : ℚ) = Int.fract x - 1 := by
      rw [hfract, Int.cast_add, Int.cast_one]
      ring
    rw [IsHalfEven, hupper, abs_of_nonpos (by linarith)]
    obtain ⟨hhalf, heven⟩ := not_or.mp h
    rcases lt_or_eq_of_le (not_lt.mp hhalf) with hmore | hequal
    · exact .inl (by linarith)
    · refine .inr ⟨by linarith, ?_⟩
      rw [Int.even_add_one]
      exact fun hfloor => heven ⟨hequal.symm, hfloor⟩

theorem isHalfEven_iff : IsHalfEven x n ↔ n = roundEven x := by
  constructor
  · exact fun h => h.unique (isHalfEven_roundEven x)
  · rintro rfl
    exact isHalfEven_roundEven x

theorem roundEven_neg (x : ℚ) : roundEven (-x) = -roundEven x :=
  (isHalfEven_iff.mp (isHalfEven_roundEven x).neg).symm

theorem roundEven_intCast (n : ℤ) : roundEven n = n :=
  (isHalfEven_iff.mp (isHalfEven_intCast n)).symm

/-- Rounded division of natural numbers. -/
theorem roundEven_div {denominator : ℕ} (numerator : ℕ) (h : 0 < denominator) :
    roundEven ((numerator : ℚ) / denominator) = halfEven numerator denominator := by
  have hpos : (0 : ℚ) < denominator := by exact_mod_cast h
  have hfloor : ⌊(numerator : ℚ) / denominator⌋ = ((numerator / denominator : ℕ) : ℤ) := by
    rw [Rat.floor_natCast_div_natCast]
    rfl
  have hfract : Int.fract ((numerator : ℚ) / denominator) * denominator =
      ((numerator % denominator : ℕ) : ℚ) := by
    have hdiv : (denominator : ℚ) * ((numerator / denominator : ℕ) : ℚ) +
        ((numerator % denominator : ℕ) : ℚ) = numerator := by
      exact_mod_cast Nat.div_add_mod numerator denominator
    rw [Int.fract, hfloor, sub_mul, div_mul_cancel₀ _ hpos.ne', Int.cast_natCast]
    linarith
  have hless : 2 * Int.fract ((numerator : ℚ) / denominator) < 1 ↔
      2 * (numerator % denominator) < denominator := by
    rw [← mul_lt_mul_iff_of_pos_right hpos, mul_assoc, hfract, one_mul]
    exact_mod_cast Iff.rfl
  have hequal : 2 * Int.fract ((numerator : ℚ) / denominator) = 1 ↔
      2 * (numerator % denominator) = denominator := by
    rw [← mul_left_inj' hpos.ne', mul_assoc, hfract, one_mul]
    exact_mod_cast Iff.rfl
  have heven : Even ((numerator / denominator : ℕ) : ℤ) ↔ numerator / denominator % 2 = 0 := by
    rw [Int.even_coe_nat, Nat.even_iff]
  simp only [roundEven, halfEven, hfloor, hless, hequal, heven]
  split_ifs <;> omega

/-- No half of a whole number separates two numbers: they are rounded to the same. -/
theorem roundEven_congr (hx : (m : ℚ) / 2 < x) (hx' : x < ((m + 1 : ℤ) : ℚ) / 2)
    (hy : (m : ℚ) / 2 < y) (hy' : y < ((m + 1 : ℤ) : ℚ) / 2) : roundEven x = roundEven y := by
  have hnear := isHalfEven_roundEven x
  generalize roundEven x = n at hnear
  refine isHalfEven_iff.mp (.inl ?_)
  -- the nearest number is the one end of the interval that is no half
  have hdistance : |x - n| ≤ 1 / 2 := by
    rcases hnear with h | ⟨h, -⟩ <;> linarith
  rw [abs_le] at hdistance
  push_cast at hx' hy'
  have hlow : (m : ℚ) < 2 * n + 1 := by linarith
  have hhigh : (2 * n : ℚ) < m + 2 := by linarith
  have hcases : m = 2 * n ∨ m = 2 * n - 1 := by
    have hlow' : m < 2 * n + 1 := by exact_mod_cast hlow
    have hhigh' : 2 * n < m + 2 := by exact_mod_cast hhigh
    omega
  rw [abs_lt]
  rcases hcases with rfl | rfl <;> push_cast at hy hy' <;> constructor <;> linarith

/-! ## Values -/

/-- The lowest power of ten that a value keeps at the working precision. -/
def lowestExponent (q : ℚ) : ℤ :=
  max (Int.log 10 |q| + 1 - precision) tinyExponent

/-- A value at the working precision: the nearest multiple of the lowest power of ten that it keeps,
    and of two the even one. -/
def nearest (q : ℚ) : ℚ :=
  roundEven (q / 10 ^ lowestExponent q) * 10 ^ lowestExponent q

theorem ten_zpow_pos (e : ℤ) : (0 : ℚ) < 10 ^ e :=
  zpow_pos (by norm_num) e

theorem nearest_neg (q : ℚ) : nearest (-q) = -nearest q := by
  have hlowest : lowestExponent (-q) = lowestExponent q := by
    rw [lowestExponent, abs_neg, lowestExponent]
  rw [nearest, hlowest, neg_div, roundEven_neg, Int.cast_neg, neg_mul, nearest]

theorem nearest_zero : nearest 0 = 0 := by
  have hround := roundEven_intCast 0
  rw [Int.cast_zero] at hround
  rw [nearest, zero_div, hround, Int.cast_zero, zero_mul]

/-- A value that is a multiple of the lowest power of ten that it keeps stays as it is. -/
theorem nearest_eq_self {e : ℤ} (hq : q = n * 10 ^ e) (he : lowestExponent q ≤ e) :
    nearest q = q := by
  have hscaled : q / 10 ^ lowestExponent q =
      ((n * 10 ^ (e - lowestExponent q).toNat : ℤ) : ℚ) := by
    rw [div_eq_iff (ten_zpow_pos _).ne']
    nth_rewrite 1 [hq]
    push_cast
    rw [← zpow_natCast, mul_assoc, ← zpow_add₀ (by norm_num), Int.toNat_of_nonneg (by omega),
      sub_add_cancel]
  rw [nearest, hscaled, roundEven_intCast, ← hscaled, div_mul_cancel₀ _ (ten_zpow_pos _).ne']

/-- Powers of ten above the gap between two values do not tell them apart. -/
theorem le_log_congr {g : ℤ} {k : ℕ} (hx : (k : ℚ) * (5 * 10 ^ g) < x)
    (hx' : x < (k + 1) * (5 * 10 ^ g)) (hy : (k : ℚ) * (5 * 10 ^ g) < y) {j : ℤ} (hj : g < j)
    (h : j ≤ Int.log 10 x) : j ≤ Int.log 10 y := by
  have hunit : (0 : ℚ) < 5 * 10 ^ g := mul_pos (by norm_num) (ten_zpow_pos g)
  have hzero : (0 : ℚ) ≤ k * (5 * 10 ^ g) := mul_nonneg (Nat.cast_nonneg k) hunit.le
  have hpow : ((10 : ℕ) : ℚ) ^ j = ((2 * 10 ^ (j - g - 1).toNat : ℕ) : ℚ) * (5 * 10 ^ g) := by
    have hsplit : j = 1 + ((j - g - 1).toNat : ℤ) + g := by omega
    nth_rewrite 1 [hsplit]
    rw [Nat.cast_ofNat, zpow_add₀ (by norm_num), zpow_add₀ (by norm_num), zpow_one, zpow_natCast]
    push_cast
    ring
  rw [← Int.zpow_le_iff_le_log (by decide) (hzero.trans_lt hx), hpow] at h
  rw [← Int.zpow_le_iff_le_log (by decide) (hzero.trans_lt hy), hpow]
  have hless : ((2 * 10 ^ (j - g - 1).toNat : ℕ) : ℚ) < ((k + 1 : ℕ) : ℚ) := by
    refine lt_of_mul_lt_mul_right (h.trans_lt ?_) hunit.le
    push_cast
    exact hx'
  have hle : ((2 * 10 ^ (j - g - 1).toNat : ℕ) : ℚ) ≤ k := by
    have h' : 2 * 10 ^ (j - g - 1).toNat < k + 1 := by exact_mod_cast hless
    exact_mod_cast Nat.lt_succ_iff.mp h'
  exact (mul_le_mul_of_nonneg_right hle hunit.le).trans hy.le

/-- Half a unit of a higher power of ten is a multiple of the gap, so it does not lie inside. -/
theorem exists_half_bounds (g : ℤ) (k p : ℕ) :
    ∃ m : ℤ, ∀ z : ℚ, (k : ℚ) * (5 * 10 ^ g) < z → z < (k + 1) * (5 * 10 ^ g) →
      (m : ℚ) / 2 < z / 10 ^ (g + 1 + p) ∧ z / 10 ^ (g + 1 + p) < ((m + 1 : ℤ) : ℚ) / 2 := by
  have hunit : (0 : ℚ) < 5 * 10 ^ g := mul_pos (by norm_num) (ten_zpow_pos g)
  have hpower : (10 : ℚ) ^ (g + 1 + p) = 2 * (10 ^ p : ℕ) * (5 * 10 ^ g) := by
    rw [zpow_add₀ (by norm_num), zpow_add₀ (by norm_num), zpow_one, zpow_natCast]
    push_cast
    ring
  have hbelow : ((k / 10 ^ p : ℕ) : ℚ) * (10 ^ p : ℕ) ≤ k := by
    exact_mod_cast Nat.div_mul_le_self k (10 ^ p)
  have habove : (k : ℚ) + 1 ≤ ((k / 10 ^ p : ℕ) + 1) * (10 ^ p : ℕ) := by
    have h := Nat.lt_div_mul_add (a := k) (b := 10 ^ p) (by positivity)
    have h' : k + 1 ≤ (k / 10 ^ p + 1) * 10 ^ p := by rw [Nat.add_mul, Nat.one_mul]; omega
    exact_mod_cast h'
  refine ⟨(k / 10 ^ p : ℕ), fun z hz hz' => ?_⟩
  generalize k / 10 ^ p = m at hbelow habove
  have hmul := mul_le_mul_of_nonneg_right hbelow hunit.le
  have hmul' := mul_le_mul_of_nonneg_right habove hunit.le
  rw [lt_div_iff₀ (ten_zpow_pos _), div_lt_iff₀ (ten_zpow_pos _), hpower]
  push_cast at hmul hmul' ⊢
  constructor <;> linarith

/-- **Rounding depends on a half unit only**: two values between the same neighbours among the
    multiples of five units below the lowest kept power of ten are rounded to the same. -/
theorem nearest_congr {g : ℤ} {k : ℕ} (hx : (k : ℚ) * (5 * 10 ^ g) < x)
    (hx' : x < (k + 1) * (5 * 10 ^ g)) (hy : (k : ℚ) * (5 * 10 ^ g) < y)
    (hy' : y < (k + 1) * (5 * 10 ^ g)) (hg : g < lowestExponent x) : nearest x = nearest y := by
  have hunit : (0 : ℚ) < 5 * 10 ^ g := mul_pos (by norm_num) (ten_zpow_pos g)
  have hzero : (0 : ℚ) ≤ k * (5 * 10 ^ g) := mul_nonneg (Nat.cast_nonneg k) hunit.le
  have hlowest : lowestExponent x = lowestExponent y := by
    have hxy (j : ℤ) (hj : g < j) : j ≤ Int.log 10 x ↔ j ≤ Int.log 10 y :=
      ⟨le_log_congr hx hx' hy hj, le_log_congr hy hy' hx hj⟩
    have hlogs := hxy (Int.log 10 x)
    have hlogs' := hxy (Int.log 10 y)
    rw [lowestExponent, abs_of_pos (hzero.trans_lt hx)] at hg ⊢
    rw [lowestExponent, abs_of_pos (hzero.trans_lt hy)]
    have hprecision : (precision : ℤ) = 28 := rfl
    omega
  obtain ⟨m, hm⟩ := exists_half_bounds g k (lowestExponent x - g - 1).toNat
  have hexponent : g + 1 + ((lowestExponent x - g - 1).toNat : ℤ) = lowestExponent x := by omega
  rw [hexponent] at hm
  obtain ⟨hlow, hhigh⟩ := hm x hx hx'
  obtain ⟨hlow', hhigh'⟩ := hm y hy hy'
  rw [nearest, nearest, ← hlowest, roundEven_congr hlow hhigh hlow' hhigh']

end Cambio.Decimal
