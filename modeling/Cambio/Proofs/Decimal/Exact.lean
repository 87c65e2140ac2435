import Cambio.Proofs.Decimal.Nearest
import Cambio.Proofs.Decimal.Numeral

/-!
# Correctly rounded arithmetic

Sum, difference, product and quotient of finite decimals are the nearest values to the exact ones,
or there is no result because it would be too large. In particular they depend on the values of the
operands only, whatever their forms.

## Main definitions

- `Decimal.tooLarge` — the least magnitude that no result has
- `Decimal.Rounds` — a result is the nearest one to an exact value

## Main statements

- `Decimal.rounds_rounded` — bringing a magnitude to the working precision
- `Decimal.rounds_add`, `Decimal.rounds_sub`, `Decimal.rounds_mul`, `Decimal.rounds_div` — the
  operations
-/

namespace Cambio.Decimal

/-- The least magnitude that no result has. -/
def tooLarge : ℚ :=
  10 ^ (maxExponent + 1)

/-- A result has the value that is nearest to an exact one, unless that is too large. -/
inductive Rounds (q : ℚ) : Except Signal Decimal → Prop
  | ok {d : Decimal} (held : d.IsHeld) (value : d.value = nearest q)
      (range : |nearest q| < tooLarge) : Rounds q (.ok d)
  | overflow (range : tooLarge ≤ |nearest q|) : Rounds q (.error .overflow)

variable {c d k : Nat} {e f : Int} {q : ℚ}

/-! ## One magnitude -/

theorem magnitude_pos (hc : c ≠ 0) (e : Int) : 0 < magnitude c e :=
  mul_pos (by exact_mod_cast Nat.pos_of_ne_zero hc) (ten_zpow_pos e)

theorem pow_digitCount_le (hc : c ≠ 0) : 10 ^ (digitCount c - 1) ≤ c := by
  by_contra hless
  obtain hone | hmany : digitCount c - 1 = 0 ∨ 0 < digitCount c - 1 := by omega
  · rw [hone, Nat.pow_zero] at hless
    omega
  · have h := (digitCount_le_iff hmany).mpr (Nat.not_le.mp hless)
    omega

theorem lt_pow_digitCount (c : Nat) : c < 10 ^ digitCount c :=
  (digitCount_le_iff (digitCount_pos c)).mp (Nat.le_refl _)

theorem le_adjusted_iff (hc : c ≠ 0) {j : Int} :
    j ≤ adjusted c e ↔ (10 : ℚ) ^ j ≤ magnitude c e := by
  have hpos := digitCount_pos c
  constructor
  · intro hj
    have hlow : (10 : ℚ) ^ (digitCount c - 1) ≤ c := by exact_mod_cast pow_digitCount_le hc
    calc (10 : ℚ) ^ j ≤ 10 ^ adjusted c e := zpow_le_zpow_right₀ (by norm_num) hj
      _ = 10 ^ (digitCount c - 1) * 10 ^ e := by
        rw [← zpow_natCast, ← zpow_add₀ (by norm_num), adjusted]
        congr 1
        omega
      _ ≤ magnitude c e := mul_le_mul_of_nonneg_right hlow (ten_zpow_pos e).le
  · intro hj
    by_contra hless
    have hhigh : (c : ℚ) < 10 ^ digitCount c := by exact_mod_cast lt_pow_digitCount c
    have hmagnitude : magnitude c e < (10 : ℚ) ^ j :=
      calc magnitude c e < 10 ^ digitCount c * 10 ^ e :=
            mul_lt_mul_of_pos_right hhigh (ten_zpow_pos e)
        _ = 10 ^ (adjusted c e + 1) := by
          rw [← zpow_natCast, ← zpow_add₀ (by norm_num), adjusted]
          congr 1
          omega
        _ ≤ 10 ^ j := zpow_le_zpow_right₀ (by norm_num) (by omega)
    exact absurd hj (not_le.mpr hmagnitude)

theorem log_magnitude (hc : c ≠ 0) (e : Int) : Int.log 10 (magnitude c e) = adjusted c e := by
  have hlog (j : Int) : j ≤ Int.log 10 (magnitude c e) ↔ j ≤ adjusted c e := by
    rw [← Int.zpow_le_iff_le_log (by decide) (magnitude_pos hc e), le_adjusted_iff hc]
    rfl
  exact Int.le_antisymm ((hlog _).mp (Int.le_refl _)) ((hlog _).mpr (Int.le_refl _))

theorem lowestExponent_magnitude (hc : c ≠ 0) (e : Int) :
    lowestExponent (magnitude c e) = lowestKept c e := by
  rw [lowestExponent, abs_of_pos (magnitude_pos hc e), log_magnitude hc, lowestKept, adjusted]
  congr 1
  omega

/-- Dropping more digits than there are leaves what rounding leaves. -/
theorem dropDigits_eq_halfEven (c count : Nat) : dropDigits c count = halfEven c (10 ^ count) := by
  rw [dropDigits]
  split
  · next hless =>
    have hsmall : c < 10 ^ (count - 1) := by
      have hpos := digitCount_pos c
      exact (digitCount_le_iff (by omega)).mp (by omega)
    have hpow : 10 ^ count = 10 * 10 ^ (count - 1) := by
      rw [← Nat.pow_succ', Nat.succ_eq_add_one, Nat.sub_add_cancel (by omega)]
    have hdiv : c / 10 ^ count = 0 := Nat.div_eq_of_lt (by omega)
    have hmod : c % 10 ^ count = c := Nat.mod_eq_of_lt (by omega)
    simp only [halfEven, hdiv, hmod]
    rw [if_pos (by omega)]
  · rfl

/-- Rounding at a power of ten drops the digits below it. -/
theorem roundEven_magnitude (hle : e ≤ f) (c : Nat) :
    roundEven (magnitude c e / 10 ^ f) = dropDigits c (f - e).toNat := by
  have hquotient : magnitude c e / 10 ^ f = (c : ℚ) / (10 ^ (f - e).toNat : ℕ) := by
    rw [magnitude, div_eq_div_iff (ten_zpow_pos _).ne' (by positivity), mul_assoc]
    push_cast
    rw [← zpow_natCast, ← zpow_add₀ (by norm_num), Int.toNat_of_nonneg (by omega)]
    congr 2
    omega
  rw [hquotient, roundEven_div c (by positivity), dropDigits_eq_halfEven]

/-- A coefficient that rounding makes a digit longer is a power of ten. -/
theorem dropDigits_eq_pow (hcount : digitCount c ≤ precision + k)
    (hlong : precision < digitCount (dropDigits c k)) : dropDigits c k = 10 ^ precision := by
  have hprecision : 0 < precision := by decide
  have hlow : 10 ^ precision ≤ dropDigits c k := by
    by_contra hless
    have h := (digitCount_le_iff hprecision).mpr (Nat.not_le.mp hless)
    omega
  have hhigh : c < 10 ^ precision * 10 ^ k := by
    rw [← Nat.pow_add]
    exact (digitCount_le_iff (by omega)).mp hcount
  have hquotient : c / 10 ^ k < 10 ^ precision := Nat.div_lt_of_lt_mul (by rwa [Nat.mul_comm])
  rw [dropDigits_eq_halfEven] at hlow ⊢
  simp only [halfEven] at hlow ⊢
  split_ifs at hlow ⊢ <;> omega

/-- What rounding keeps of a magnitude is the nearest value. -/
theorem magnitude_kept (hc : c ≠ 0) (e : Int) :
    magnitude (kept c e).1 (kept c e).2 = nearest (magnitude c e) := by
  have hlowest := lowestExponent_magnitude hc e
  by_cases hdrop : e < lowestKept c e
  · have hnearest : nearest (magnitude c e) =
        magnitude (dropDigits c (lowestKept c e - e).toNat) (lowestKept c e) := by
      rw [nearest, hlowest, roundEven_magnitude hdrop.le, magnitude, Int.cast_natCast]
    rw [kept, if_pos hdrop, hnearest]
    dsimp only
    split
    · next hlong =>
      have hcount : digitCount c ≤ precision + (lowestKept c e - e).toNat := by
        have hle : e + digitCount c - precision ≤ lowestKept c e := Int.le_max_left _ _
        omega
      rw [dropDigits_eq_pow hcount hlong]
      have hscale := magnitude_scale (10 ^ precision / 10) (lowestKept c e + 1) 1
      rw [Int.natCast_one, Int.add_sub_cancel] at hscale
      exact hscale.symm
    · rfl
  · rw [kept, if_neg hdrop, nearest_eq_self (n := c) (by rw [magnitude]; rfl) (by omega)]

/-- What rounding keeps is in the range of decimals. -/
theorem tinyExponent_le_kept (c : Nat) (e : Int) : tinyExponent ≤ (kept c e).2 := by
  have htiny : tinyExponent ≤ lowestKept c e := Int.le_max_right _ _
  unfold kept
  dsimp only
  split_ifs <;> dsimp only <;> omega

theorem div_le_halfEven (numerator denominator : Nat) :
    numerator / denominator ≤ halfEven numerator denominator := by
  simp only [halfEven]
  split_ifs <;> omega

/-- Only at the lowest power of ten of all is something rounded down to nothing. -/
theorem kept_eq_tinyExponent (hc : c ≠ 0) (hzero : (kept c e).1 = 0) :
    (kept c e).2 = tinyExponent := by
  by_cases hdrop : e < lowestKept c e
  · have hcount : digitCount c ≤ precision + (lowestKept c e - e).toNat := by
      have hle : e + digitCount c - precision ≤ lowestKept c e := Int.le_max_left _ _
      omega
    rw [kept, if_pos hdrop] at hzero ⊢
    dsimp only at hzero ⊢
    by_cases hlong : precision < digitCount (dropDigits c (lowestKept c e - e).toNat)
    · rw [if_pos hlong, dropDigits_eq_pow hcount hlong] at hzero
      have hten : 10 ^ precision / 10 ≠ 0 := by decide
      exact absurd hzero hten
    · rw [if_neg hlong] at hzero ⊢
      by_contra hless
      -- above it a digit is left of a coefficient that is longer than the precision
      have hfew : (lowestKept c e - e).toNat ≤ digitCount c - 1 := by
        have hprecision : (precision : Int) = 28 := rfl
        change lowestKept c e ≠ tinyExponent at hless
        rw [lowestKept] at hless hdrop ⊢
        omega
      have hquotient : 0 < c / 10 ^ (lowestKept c e - e).toNat :=
        Nat.div_pos ((Nat.pow_le_pow_right (by decide) hfew).trans (pow_digitCount_le hc))
          (Nat.pow_pos (by decide))
      have hhalf := div_le_halfEven c (10 ^ (lowestKept c e - e).toNat)
      rw [dropDigits_eq_halfEven] at hzero
      omega
  · rw [kept, if_neg hdrop] at hzero
    exact absurd hzero hc

theorem tooLarge_le_iff (hc : c ≠ 0) (e : Int) :
    maxExponent < adjusted c e ↔ tooLarge ≤ magnitude c e := by
  rw [← Int.add_one_le_iff, le_adjusted_iff hc]
  rfl

theorem value_finite (negative : Bool) (c : Nat) (e : Int) :
    value (.finite negative c e) = if negative then -magnitude c e else magnitude c e :=
  rfl

theorem value_finite_zero (negative : Bool) (e : Int) : value (.finite negative 0 e) = 0 := by
  rw [value_finite, magnitude_eq_zero_iff.mpr rfl, neg_zero, ite_self]

theorem abs_value_finite (negative : Bool) (c : Nat) (e : Int) :
    |value (.finite negative c e)| = magnitude c e := by
  rw [value_finite]
  split
  · rw [abs_neg, abs_of_nonneg (magnitude_nonneg c e)]
  · rw [abs_of_nonneg (magnitude_nonneg c e)]

theorem nearest_value_finite (negative : Bool) (hc : c ≠ 0) (e : Int) :
    nearest (value (.finite negative c e)) =
      value (.finite negative (kept c e).1 (kept c e).2) := by
  rw [value_finite, value_finite, magnitude_kept hc]
  split
  · rw [nearest_neg]
  · rfl

theorem tooLarge_pos : 0 < tooLarge :=
  ten_zpow_pos _

/-- A result of no digits is nought, at any power of ten in range. -/
theorem rounds_zero (negative : Bool) (hq : nearest q = 0) (hlow : tinyExponent ≤ e)
    (hhigh : e ≤ maxExponent) : Rounds q (.ok (.finite negative 0 e)) := by
  have hwide : maxExponent ≤ widestExponent := by decide
  have hdeep : deepestExponent ≤ tinyExponent := by decide
  refine .ok ⟨?_, by omega⟩ (by rw [value_finite_zero, hq]) ?_
  · rw [if_pos rfl]
    omega
  · rw [hq, abs_zero]
    exact tooLarge_pos

/-- Bringing a signed magnitude to the working precision gives the nearest value. -/
theorem rounds_rounded (negative : Bool) (c : Nat) (e : Int) :
    Rounds (value (.finite negative c e)) (rounded negative c e) := by
  have htop : tinyExponent ≤ maxExponent := by decide
  by_cases hc : c = 0
  · subst hc
    rw [rounded, if_pos rfl]
    exact rounds_zero negative (by rw [value_finite_zero, nearest_zero]) (by omega) (by omega)
  · have hnearest := nearest_value_finite negative hc e
    have htiny := tinyExponent_le_kept c e
    rw [rounded_of_ne_zero hc]
    by_cases hzero : (kept c e).1 = 0
    · have hlowest := kept_eq_tinyExponent hc hzero
      have hadjusted : adjusted 0 tinyExponent = tinyExponent := by decide
      rw [hzero, hlowest, hadjusted, if_neg (by omega)]
      exact rounds_zero negative (by rw [hnearest, hzero, value_finite_zero]) (Int.le_refl _) htop
    · have hlarge := tooLarge_le_iff hzero (kept c e).2
      rw [← abs_value_finite negative, ← hnearest] at hlarge
      split
      · next hover => exact .overflow (hlarge.mp hover)
      · next hover =>
        have hwide : maxExponent ≤ widestExponent := by decide
        have hdeep : deepestExponent ≤ tinyExponent := by decide
        refine .ok ⟨?_, by omega⟩ hnearest.symm (not_le.mp fun h => hover (hlarge.mpr h))
        rw [if_neg hzero]
        omega

/-- A result depends on what its exact value is rounded to. -/
theorem Rounds.congr {r : Except Signal Decimal} {x : ℚ} (h : Rounds q r)
    (hnearest : nearest q = nearest x) : Rounds x r := by
  cases h with
  | ok held value range =>
    rw [hnearest] at value range
    exact .ok held value range
  | overflow range =>
    rw [hnearest] at range
    exact .overflow range

/-! ## Sums -/

/-- A value keeps digits at most one place below those of a value ten times as large. -/
theorem lowestExponent_le_of_le {x : ℚ} (hq : 0 < q) (hx : q / 10 ≤ x) :
    lowestExponent q - 1 ≤ lowestExponent x := by
  have hpos : 0 < x := (div_pos hq (by norm_num)).trans_le hx
  have hlog : Int.log 10 q - 1 ≤ Int.log 10 x := by
    rw [← Int.zpow_le_iff_le_log (by decide) hpos]
    refine le_trans ?_ hx
    have hpow : ((10 : ℕ) : ℚ) ^ (Int.log 10 q - 1) = ((10 : ℕ) : ℚ) ^ Int.log 10 q / 10 := by
      rw [zpow_sub_one₀ (by norm_num), Nat.cast_ofNat, div_eq_mul_inv]
    rw [hpow]
    exact div_le_div_of_nonneg_right (Int.zpow_log_le_self (by decide) hq) (by norm_num)
  rw [lowestExponent, lowestExponent, abs_of_pos hq, abs_of_pos hpos]
  omega

/-- What is far below the last digit of an addend only decides which way a sum is rounded, and so
    does any other value there. -/
theorem nearest_add_congr {g : ℤ} {m : ℕ} {s t : ℚ} (hq : q = 10 * m * 10 ^ g) (hm : m ≠ 0)
    (hg : g + 1 < lowestExponent q) (hs : 0 < s) (hs' : s ≤ 10 ^ g) (ht : 0 < t)
    (ht' : t ≤ 10 ^ g) : nearest (q + s) = nearest (q + t) ∧ nearest (q - s) = nearest (q - t) := by
  have hunit := ten_zpow_pos g
  have hone : (1 : ℚ) ≤ m := by exact_mod_cast Nat.pos_of_ne_zero hm
  have hle : 10 * 10 ^ g ≤ q := by
    rw [hq]
    nlinarith
  have hpos : 0 < q := by linarith
  constructor
  · refine nearest_congr (g := g) (k := 2 * m) ?_ ?_ ?_ ?_ ?_
    iterate 4 push_cast; linarith
    have hlowest := lowestExponent_le_of_le hpos (show q / 10 ≤ q + s by linarith)
    omega
  · have hcast : ((2 * m - 1 : ℕ) : ℚ) = 2 * m - 1 := by
      rw [Nat.cast_sub (by omega)]
      push_cast
      rfl
    refine nearest_congr (g := g) (k := 2 * m - 1) ?_ ?_ ?_ ?_ ?_
    iterate 4 rw [hcast]; linarith
    have hlowest := lowestExponent_le_of_le hpos (show q / 10 ≤ q - s by linarith)
    omega

/-- The sum of two signed magnitudes at one exponent. -/
theorem rounds_signed (m n : Bool) (a b : Nat) (x : Int) :
    Rounds (value (.finite m a x) + value (.finite n b x))
      (if m = n then rounded m (a + b) x
        else if a = b then rounded false 0 x
        else if b < a then rounded m (a - b) x
        else rounded n (b - a) x) := by
  have hsum : magnitude (a + b) x = magnitude a x + magnitude b x := by
    rw [magnitude, Nat.cast_add, add_mul]
    rfl
  have hdifference {i j : Nat} (hle : j ≤ i) :
      magnitude (i - j) x = magnitude i x - magnitude j x := by
    rw [magnitude, Nat.cast_sub hle, sub_mul]
    rfl
  split_ifs with hsign hequal hless
  · have hvalue : value (.finite m (a + b) x) = value (.finite m a x) + value (.finite n b x) := by
      subst hsign
      simp only [value_finite, hsum]
      split <;> ring
    rw [← hvalue]
    exact rounds_rounded _ _ _
  · have hvalue : value (.finite false 0 x) = value (.finite m a x) + value (.finite n b x) := by
      subst hequal
      rw [value_finite_zero]
      cases m <;> cases n <;> simp_all [value_finite]
    rw [← hvalue]
    exact rounds_rounded _ _ _
  · have hvalue : value (.finite m (a - b) x) = value (.finite m a x) + value (.finite n b x) := by
      simp only [value_finite, hdifference hless.le]
      cases m <;> cases n <;> simp_all <;> ring
    rw [← hvalue]
    exact rounds_rounded _ _ _
  · have hvalue : value (.finite n (b - a) x) = value (.finite m a x) + value (.finite n b x) := by
      simp only [value_finite, hdifference (not_lt.mp hless)]
      cases m <;> cases n <;> simp_all <;> ring
    rw [← hvalue]
    exact rounds_rounded _ _ _

/-- One unit below the last digit that can be kept stands for an addend that ends further down. -/
theorem nearest_far (m n : Bool) (hc : c ≠ 0) (hd : d ≠ 0) {g : Int}
    (hg : g = f + min (-1) ((digitCount d : Int) - precision - 2))
    (hfar : e + digitCount c - 1 < g) :
    nearest (value (.finite m 1 g) + value (.finite n (d * 10 ^ (f - g).toNat) g)) =
      nearest (value (.finite m c e) + value (.finite n d f)) := by
  have hbelow : g < f := by omega
  have hone : magnitude 1 g = 10 ^ g := by rw [magnitude, Nat.cast_one, one_mul]
  have hlarge := magnitude_eq_lower hbelow.le d
  have hshift : magnitude d f = 10 * (d * 10 ^ (f - g - 1).toNat : ℕ) * 10 ^ g := by
    have hsucc : (f - g).toNat = (f - g - 1).toNat + 1 := by omega
    rw [hlarge, magnitude, hsucc, Nat.pow_succ]
    push_cast
    ring
  have hsmall : magnitude c e ≤ 10 ^ g := by
    rw [← not_lt, ← hone]
    intro hless
    have h := (le_adjusted_iff (e := e) hc).mpr (hone ▸ hless.le)
    rw [adjusted] at h
    omega
  have hkept : g + 1 < lowestExponent (magnitude d f) := by
    have hle : f + digitCount d - precision ≤ lowestKept d f := Int.le_max_left _ _
    rw [lowestExponent_magnitude hd]
    omega
  have hm : d * 10 ^ (f - g - 1).toNat ≠ 0 := Nat.mul_ne_zero hd (Nat.pow_pos (by decide)).ne'
  obtain ⟨hadd, hsub⟩ := nearest_add_congr hshift hm hkept (magnitude_pos hc e) hsmall
    (magnitude_pos one_ne_zero g) hone.le
  simp only [value_finite, ← hlarge]
  -- up to a sign the small addend is added or taken away
  cases m <;> cases n <;> simp only [Bool.false_eq_true, if_true, if_false]
  · rw [add_comm, ← hadd, add_comm]
  · rw [← sub_eq_add_neg, ← sub_eq_add_neg, ← neg_sub, nearest_neg, ← hsub, ← nearest_neg, neg_sub]
  · rw [neg_add_eq_sub, ← hsub, neg_add_eq_sub]
  · rw [← neg_add, add_comm, nearest_neg, ← hadd, ← nearest_neg, add_comm, neg_add]

/-- Aligned magnitudes are rounded like the ones they stand for. -/
theorem nearest_aligned (m n : Bool) (hc : c ≠ 0) (hd : d ≠ 0) (e f : Int) :
    nearest (value (.finite m (aligned c e d f).1 (aligned c e d f).2.2) +
        value (.finite n (aligned c e d f).2.1 (aligned c e d f).2.2)) =
      nearest (value (.finite m c e) + value (.finite n d f)) := by
  unfold aligned
  split
  · next hef =>
    dsimp only
    split
    · next hfar => exact nearest_far m n hc hd rfl hfar.2.2
    · simp only [value_finite, magnitude_eq_lower hef.le d]
      rfl
  · next hfe =>
    dsimp only
    split
    · next hfar =>
      rw [add_comm, add_comm (value (.finite m c e))]
      exact nearest_far n m hd hc rfl hfar.2.2
    · simp only [value_finite, magnitude_eq_lower (not_lt.mp hfe) c]
      rfl

/-- A sum with nought is the other addend. -/
theorem magnitude_lowered (c : Nat) (e f : Int) :
    magnitude (lowered c e f).1 (lowered c e f).2 = magnitude c e := by
  have hprecision : (0 : Int) ≤ precision := by decide
  have hle : max (min e f) (e - precision - 1) ≤ e := by omega
  exact (magnitude_eq_lower hle c).symm

theorem rounds_lowered (negative : Bool) (c : Nat) (e f : Int) :
    Rounds (value (.finite negative c e))
      (rounded negative (lowered c e f).1 (lowered c e f).2) := by
  have h := rounds_rounded negative (lowered c e f).1 (lowered c e f).2
  rwa [value_finite, magnitude_lowered] at h

theorem rounds_add {a b : Decimal} (ha : a.isFinite = true) (hb : b.isFinite = true) :
    Rounds (a.value + b.value) (a.add b) := by
  obtain ⟨m, c, e, rfl⟩ := eq_finite_of_isFinite ha
  obtain ⟨n, d, f, rfl⟩ := eq_finite_of_isFinite hb
  change Rounds _ (addFinite m c e n d f)
  unfold addFinite
  by_cases hboth : c = 0 ∧ d = 0
  · rw [if_pos hboth, hboth.1, hboth.2, value_finite_zero, value_finite_zero, zero_add]
    have h := rounds_rounded (m && n) 0 (min e f)
    rwa [value_finite_zero] at h
  · rw [if_neg hboth]
    by_cases hc : c = 0
    · rw [if_pos hc, hc, value_finite_zero, zero_add]
      exact rounds_lowered n d f e
    · rw [if_neg hc]
      by_cases hd : d = 0
      · rw [if_pos hd, hd, value_finite_zero, add_zero]
        exact rounds_lowered m c e f
      · rw [if_neg hd]
        exact (rounds_signed m n _ _ _).congr (nearest_aligned m n hc hd e f)

theorem value_negated (d : Decimal) : d.negated.value = -d.value := by
  cases d with
  | finite negative c e =>
    rw [negated, value_finite, value_finite]
    cases negative <;> simp
  | infinite | nan => exact neg_zero.symm

theorem isFinite_negated (d : Decimal) : d.negated.isFinite = d.isFinite := by
  cases d <;> rfl

theorem rounds_sub {a b : Decimal} (ha : a.isFinite = true) (hb : b.isFinite = true) :
    Rounds (a.value - b.value) (a.sub b) := by
  have h := rounds_add ha ((isFinite_negated b).trans hb)
  rwa [value_negated, ← sub_eq_add_neg] at h

/-! ## Products -/

/-- The sign of a product or a quotient is the product of the signs. -/
theorem value_signed (m n : Bool) {s t : ℚ} :
    (if (m != n) = true then -(s * t) else s * t) =
      (if m then -s else s) * (if n then -t else t) := by
  cases m <;> cases n <;> simp

theorem rounds_mul {a b : Decimal} (ha : a.isFinite = true) (hb : b.isFinite = true) :
    Rounds (a.value * b.value) (a.mul b) := by
  obtain ⟨m, c, e, rfl⟩ := eq_finite_of_isFinite ha
  obtain ⟨n, d, f, rfl⟩ := eq_finite_of_isFinite hb
  have hproduct : magnitude (c * d) (e + f) = magnitude c e * magnitude d f := by
    simp only [magnitude]
    rw [zpow_add₀ (by norm_num)]
    push_cast
    ring
  have h := rounds_rounded (m != n) (c * d) (e + f)
  rwa [value_finite, hproduct, value_signed] at h

/-! ## Quotients -/

/-- Zeros taken off the end of a coefficient leave the magnitude as it is. -/
theorem magnitude_trimZeros (target : Int) (fuel c : Nat) (e : Int) :
    magnitude (trimZeros target fuel c e).1 (trimZeros target fuel c e).2 = magnitude c e := by
  induction fuel generalizing c e with
  | zero => rfl
  | succ fuel ih =>
    rw [trimZeros]
    split
    · next h =>
      have hscale := magnitude_scale (c / 10) (e + 1) 1
      rw [Int.natCast_one, Int.add_sub_cancel, Nat.pow_one, Nat.div_mul_cancel (by omega)] at hscale
      rw [ih, hscale]
    · rfl

/-- A value between two neighbours at a power of ten below the kept ones is rounded like the lower
    neighbour, or like the upper one if the lower is a multiple of five units. -/
theorem nearest_between {n : Nat} (hlong : 10 ^ precision ≤ n) (hlow : magnitude n e < q)
    (hhigh : q < magnitude (n + 1) e) :
    nearest (magnitude (if n % 5 = 0 then n + 1 else n) e) = nearest q := by
  have hunit := ten_zpow_pos e
  generalize hr : (if n % 5 = 0 then n + 1 else n) = r
  have hbounds : n / 5 * 5 < r ∧ r < (n / 5 + 1) * 5 ∧ n ≤ r := by
    split_ifs at hr <;> omega
  obtain ⟨hbelow, habove, hle⟩ := hbounds
  have hcount : precision < digitCount r := by
    by_contra hshort
    rw [Nat.not_lt, digitCount_le_iff (by decide)] at hshort
    omega
  have hkept : e < lowestExponent (magnitude r e) := by
    have hfirst : e + digitCount r - precision ≤ lowestKept r e := Int.le_max_left _ _
    rw [lowestExponent_magnitude (by rintro rfl; omega)]
    omega
  rw [magnitude] at hlow hhigh
  refine nearest_congr (g := e) (k := n / 5) ?_ ?_ ?_ ?_ hkept
  · rw [← mul_assoc, magnitude]
    refine mul_lt_mul_of_pos_right ?_ hunit
    exact_mod_cast hbelow
  · rw [← mul_assoc, magnitude]
    refine mul_lt_mul_of_pos_right ?_ hunit
    exact_mod_cast habove
  · refine lt_of_le_of_lt ?_ hlow
    rw [← mul_assoc]
    refine mul_le_mul_of_nonneg_right ?_ hunit.le
    exact_mod_cast Nat.div_mul_le_self n 5
  · refine lt_of_lt_of_le hhigh ?_
    rw [← mul_assoc]
    refine mul_le_mul_of_nonneg_right ?_ hunit.le
    have hnext : n + 1 ≤ (n / 5 + 1) * 5 := by omega
    exact_mod_cast hnext

/-- A quotient of magnitudes as a fraction of natural numbers and a power of ten. -/
theorem magnitude_div (c d : Nat) (e f shift : Int) :
    magnitude c e / magnitude d f =
      ((c * 10 ^ shift.toNat : ℕ) : ℚ) / (d * 10 ^ (-shift).toNat : ℕ) * 10 ^ (e - f - shift) := by
  have hpow : (10 : ℚ) ^ shift.toNat / 10 ^ (-shift).toNat = 10 ^ shift := by
    rw [← zpow_natCast, ← zpow_natCast, ← zpow_sub₀ (by norm_num)]
    congr 1
    omega
  have hunits : (10 : ℚ) ^ e / 10 ^ f = 10 ^ shift * 10 ^ (e - f - shift) := by
    rw [← zpow_sub₀ (by norm_num), ← zpow_add₀ (by norm_num), add_sub_cancel]
  rw [magnitude, magnitude, mul_div_mul_comm, hunits, ← hpow]
  push_cast
  rw [mul_div_mul_comm, mul_assoc]

/-- The quotient has more digits than the working precision. -/
theorem pow_precision_mul_le (hc : c ≠ 0) {shift : Int}
    (hshift : shift = (digitCount d : Int) - digitCount c + precision + 1) :
    10 ^ precision * (d * 10 ^ (-shift).toNat) ≤ c * 10 ^ shift.toNat := by
  have hcount := digitCount_pos c
  have hexponents : precision + digitCount d + (-shift).toNat = digitCount c - 1 + shift.toNat := by
    omega
  calc 10 ^ precision * (d * 10 ^ (-shift).toNat)
      ≤ 10 ^ precision * (10 ^ digitCount d * 10 ^ (-shift).toNat) :=
        Nat.mul_le_mul_left _ (Nat.mul_le_mul_right _ (lt_pow_digitCount d).le)
    _ = 10 ^ (digitCount c - 1) * 10 ^ shift.toNat := by
        rw [← Nat.pow_add, ← Nat.pow_add, ← Nat.pow_add, ← hexponents, Nat.add_assoc]
    _ ≤ c * 10 ^ shift.toNat := Nat.mul_le_mul_right _ (pow_digitCount_le hc)

/-- What stands for a quotient that does not end is one of its two neighbours. -/
theorem nearest_inexact {numerator denominator : Nat} (hpos : 0 < denominator)
    (hlong : 10 ^ precision * denominator ≤ numerator) (hmod : numerator % denominator ≠ 0)
    (e : Int) :
    nearest (magnitude (if numerator / denominator % 5 = 0 then numerator / denominator + 1
        else numerator / denominator) e) =
      nearest ((numerator : ℚ) / denominator * 10 ^ e) := by
  have hunit := ten_zpow_pos e
  have hdenominator : (0 : ℚ) < denominator := by exact_mod_cast hpos
  have hdiv := Nat.div_add_mod numerator denominator
  have hless := Nat.mod_lt numerator hpos
  refine nearest_between ((Nat.le_div_iff_mul_le hpos).mpr hlong) ?_ ?_
  · refine mul_lt_mul_of_pos_right ?_ hunit
    rw [lt_div_iff₀ hdenominator]
    have hbelow : numerator / denominator * denominator < numerator := by
      rw [Nat.mul_comm]
      omega
    exact_mod_cast hbelow
  · refine mul_lt_mul_of_pos_right ?_ hunit
    rw [div_lt_iff₀ hdenominator]
    have habove : numerator < (numerator / denominator + 1) * denominator := by
      rw [Nat.add_mul, Nat.one_mul]
      exact Nat.lt_div_mul_add hpos
    exact_mod_cast habove

/-- The magnitude that stands for a quotient is rounded like the quotient. -/
theorem nearest_quotient (hc : c ≠ 0) (hd : d ≠ 0) (e f : Int) :
    nearest (magnitude (quotient c e d f).1 (quotient c e d f).2) =
      nearest (magnitude c e / magnitude d f) := by
  unfold quotient
  generalize hshift : (digitCount d : Int) - digitCount c + precision + 1 = shift
  have hlong := pow_precision_mul_le (d := d) hc hshift.symm
  have hpos : 0 < d * 10 ^ (-shift).toNat :=
    Nat.mul_pos (Nat.pos_of_ne_zero hd) (Nat.pow_pos (by decide))
  rw [magnitude_div c d e f shift]
  dsimp only [Nat.pow_eq]
  generalize c * 10 ^ shift.toNat = numerator at hlong
  generalize d * 10 ^ (-shift).toNat = denominator at hlong hpos
  split
  · next hmod =>
    have hdenominator : (denominator : ℚ) ≠ 0 := by exact_mod_cast hpos.ne'
    have hwhole : (numerator : ℚ) / denominator = (numerator / denominator : ℕ) := by
      rw [div_eq_iff hdenominator]
      exact_mod_cast (Nat.div_mul_cancel (Nat.dvd_of_mod_eq_zero hmod)).symm
    rw [magnitude_trimZeros, magnitude, hwhole]
  · next hmod =>
    rw [← nearest_inexact hpos hlong hmod]
    split <;> rfl

theorem rounds_div {a b : Decimal} (ha : a.isFinite = true) (hb : b.isFinite = true)
    (hzero : b.isZero = false) : Rounds (a.value / b.value) (a.div b) := by
  obtain ⟨m, c, e, rfl⟩ := eq_finite_of_isFinite ha
  obtain ⟨n, d, f, rfl⟩ := eq_finite_of_isFinite hb
  have hd : d ≠ 0 := by simpa [isZero] using hzero
  have hvalue : value (.finite m c e) / value (.finite n d f) =
      if (m != n) = true then -(magnitude c e / magnitude d f)
      else magnitude c e / magnitude d f := by
    rw [value_finite, value_finite]
    cases m <;> cases n <;> simp [neg_div, div_neg]
  change Rounds _ (if d = 0 then .error (if c = 0 then .divisionUndefined else .divisionByZero)
    else if c = 0 then rounded (m != n) 0 (e - f)
    else rounded (m != n) (quotient c e d f).1 (quotient c e d f).2)
  rw [if_neg hd]
  by_cases hc : c = 0
  · have h := rounds_rounded (m != n) 0 (e - f)
    rw [value_finite_zero] at h
    rwa [if_pos hc, hc, value_finite_zero, zero_div]
  · rw [if_neg hc, hvalue]
    refine (rounds_rounded _ _ _).congr ?_
    rw [value_finite]
    split
    · rw [nearest_neg, nearest_neg, nearest_quotient hc hd]
    · exact nearest_quotient hc hd e f

end Cambio.Decimal
