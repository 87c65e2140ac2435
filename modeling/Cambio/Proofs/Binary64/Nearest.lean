import Cambio.Binary64.Basic
import Cambio.Proofs.Decimal.Exact

/-!
# The nearest binary number

The number that is nearest to a ratio depends on the value of the ratio only, and a number of the
format is the nearest one to its own value. So any notation for the value of a number denotes this
number.

## Main definitions

- `Binary64.IsNumber` — a finite number of the format

## Main statements

- `Binary64.exponentOf_eq` — the exponent that is found is the one of the leading bit
- `Binary64.ofRatio_congr` — equal ratios have one nearest number
- `Binary64.ofRatio_of_isNumber` — the nearest number to the value of a number
- `Binary64.ofPowerOfTen_congr`, `Binary64.ofPowerOfTen_of_isNumber` — the same in powers of ten
-/

namespace Cambio.Binary64

open Decimal (adjusted roundEven roundEven_div roundEven_intCast)

variable {n n' d d' m c c' : Nat} {e x x' : Int} {negative : Bool}

/-! ## Powers -/

theorem zpow_eq_div {b : ℚ} (hb : b ≠ 0) (k : Int) : b ^ k = b ^ k.toNat / b ^ (-k).toNat := by
  rw [← zpow_natCast, ← zpow_natCast, ← zpow_sub₀ hb]
  congr 1
  omega

/-- A ratio in units of a power of two. -/
theorem div_shifted (n d : Nat) (k : Int) :
    ((n * 2 ^ (-k).toNat : Nat) : ℚ) / (d * 2 ^ k.toNat : Nat) = n / d / 2 ^ k := by
  rw [zpow_eq_div two_ne_zero k]
  push_cast
  field_simp

theorem two_pow_div (a b : Nat) : (2 : ℚ) ^ a / 2 ^ b = 2 ^ ((a : Int) - b) := by
  rw [zpow_sub₀ two_ne_zero, zpow_natCast, zpow_natCast]

/-! ## The exponent -/

theorem div_pos_of_ne_zero (hn : n ≠ 0) (hd : d ≠ 0) : (0 : ℚ) < n / d :=
  div_pos (by exact_mod_cast Nat.pos_of_ne_zero hn) (by exact_mod_cast Nat.pos_of_ne_zero hd)

/-- The leading bit of a ratio is that of its parts, or one further down. -/
theorem log_div_bounds (hn : n ≠ 0) (hd : d ≠ 0) :
    (n.log2 : Int) - d.log2 - 1 ≤ Int.log 2 ((n : ℚ) / d) ∧
      Int.log 2 ((n : ℚ) / d) ≤ (n.log2 : Int) - d.log2 := by
  have hq := div_pos_of_ne_zero hn hd
  have hd' : (0 : ℚ) < d := by exact_mod_cast Nat.pos_of_ne_zero hd
  constructor
  · rw [← Int.zpow_le_iff_le_log (by decide) hq]
    have hnum : (2 : ℚ) ^ n.log2 ≤ n := by exact_mod_cast Nat.log2_self_le hn
    have hden : (d : ℚ) ≤ 2 ^ (d.log2 + 1) := by exact_mod_cast Nat.lt_log2_self.le
    calc ((2 : ℕ) : ℚ) ^ ((n.log2 : Int) - d.log2 - 1)
        = 2 ^ n.log2 / 2 ^ (d.log2 + 1) := by
          rw [two_pow_div]
          push_cast
          rw [sub_sub]
      _ ≤ n / d := div_le_div₀ (Nat.cast_nonneg n) hnum hd' hden
  · rw [← Int.lt_add_one_iff, ← Int.lt_zpow_iff_log_lt (by decide) hq]
    have hnum : (n : ℚ) < 2 ^ (n.log2 + 1) := by exact_mod_cast Nat.lt_log2_self
    have hden : (2 : ℚ) ^ d.log2 ≤ d := by exact_mod_cast Nat.log2_self_le hd
    calc (n : ℚ) / d < 2 ^ (n.log2 + 1) / 2 ^ d.log2 :=
          div_lt_div₀ hnum hden (by positivity) (by positivity)
      _ = ((2 : ℕ) : ℚ) ^ ((n.log2 : Int) - d.log2 + 1) := by
          rw [two_pow_div]
          push_cast
          congr 1
          ring

/-- How many bits a ratio has before the point, in units of a power of two. -/
theorem two_pow_le_iff (hn : n ≠ 0) (hd : d ≠ 0) (bits : Nat) (k : Int) :
    2 ^ bits ≤ n * 2 ^ (-k).toNat / (d * 2 ^ k.toNat) ↔ bits + k ≤ Int.log 2 ((n : ℚ) / d) := by
  have hpos : 0 < d * 2 ^ k.toNat := Nat.mul_pos (Nat.pos_of_ne_zero hd) (by positivity)
  have hpos' : (0 : ℚ) < (d * 2 ^ k.toNat : Nat) := by exact_mod_cast hpos
  have hunit : (0 : ℚ) < 2 ^ k := zpow_pos two_pos k
  rw [← Int.zpow_le_iff_le_log (by decide) (div_pos_of_ne_zero hn hd), Nat.le_div_iff_mul_le hpos,
    ← Nat.cast_le (α := ℚ), Nat.cast_mul, ← le_div_iff₀ hpos', div_shifted, le_div_iff₀ hunit,
    Nat.cast_ofNat, zpow_add₀ two_ne_zero, zpow_natCast]
  push_cast
  rfl

/-- The exponent that is found is the one of the leading bit, 52 bits further down. -/
theorem exponentOf_eq (hn : n ≠ 0) (hd : d ≠ 0) :
    exponentOf n d = max (Int.log 2 ((n : ℚ) / d) - 52) lowestExponent := by
  obtain ⟨hlow, hhigh⟩ := log_div_bounds hn hd
  have hreach := two_pow_le_iff hn hd 53 ((n.log2 : Int) - d.log2 - 53)
  unfold exponentOf
  simp only [Nat.pow_eq, hreach]
  push_cast
  split <;> congr 1 <;> omega

/-! ## Ratios -/

/-- The nearest number depends on the value of a ratio only. -/
theorem ofRatio_congr (hd : d ≠ 0) (hd' : d' ≠ 0) (h : (n : ℚ) / d = n' / d') :
    ofRatio negative n d = ofRatio negative n' d' := by
  have hzero : n = 0 ↔ n' = 0 := by
    have hden : (d : ℚ) ≠ 0 := by exact_mod_cast hd
    have hden' : (d' : ℚ) ≠ 0 := by exact_mod_cast hd'
    rw [← Nat.cast_eq_zero (R := ℚ), ← Nat.cast_eq_zero (R := ℚ) (n := n'),
      ← div_eq_zero_iff.trans (or_iff_left hden), h, div_eq_zero_iff.trans (or_iff_left hden')]
  by_cases hn : n = 0
  · rw [hn, hzero.mp hn]
    simp only [ofRatio, if_true]
  · have hn' : n' ≠ 0 := fun h => hn (hzero.mpr h)
    have hexponent : exponentOf n d = exponentOf n' d' := by
      rw [exponentOf_eq hn hd, exponentOf_eq hn' hd', h]
    have hmantissa (k : Int) : halfEven (n * Nat.pow 2 (-k).toNat) (d * Nat.pow 2 k.toNat) =
        halfEven (n' * Nat.pow 2 (-k).toNat) (d' * Nat.pow 2 k.toNat) := by
      have hpow : 0 < 2 ^ k.toNat := by positivity
      rw [← Int.natCast_inj, Nat.pow_eq, Nat.pow_eq,
        ← roundEven_div _ (Nat.mul_pos (Nat.pos_of_ne_zero hd) hpow),
        ← roundEven_div _ (Nat.mul_pos (Nat.pos_of_ne_zero hd') hpow), div_shifted, div_shifted, h]
    simp only [ofRatio, if_neg hn, if_neg hn', hexponent, hmantissa]

/-- A finite number of the format: its mantissa has 53 bits, or fewer at the lowest exponent. -/
def IsNumber : Binary64 → Prop
  | .finite _ m e =>
    m < 2 ^ 53 ∧ (2 ^ 52 ≤ m ∨ e = lowestExponent) ∧ lowestExponent ≤ e ∧ e ≤ highestExponent
  | _ => False

instance : DecidablePred IsNumber
  | .finite _ _ _ => instDecidableAnd
  | .infinite _ | .nan => instDecidableFalse

theorem exponentOf_of_isNumber (h : (finite negative m e).IsNumber) (hn : n ≠ 0) (hd : d ≠ 0)
    (hvalue : (n : ℚ) / d = m * 2 ^ e) : exponentOf n d = e := by
  obtain ⟨hbits, hfull, hlow, -⟩ := h
  have hunit : (0 : ℚ) < 2 ^ e := zpow_pos two_pos e
  have hpos : (0 : ℚ) < m * 2 ^ e := hvalue ▸ div_pos_of_ne_zero hn hd
  have hlog (j : Nat) : (j : Int) + e ≤ Int.log 2 ((m : ℚ) * 2 ^ e) ↔ 2 ^ j ≤ m := by
    rw [← Int.zpow_le_iff_le_log (by decide) hpos, Nat.cast_ofNat, zpow_add₀ two_ne_zero,
      zpow_natCast, mul_le_mul_iff_of_pos_right hunit]
    exact_mod_cast Iff.rfl
  have hhigh : ¬ (53 : Int) + e ≤ Int.log 2 ((m : ℚ) * 2 ^ e) := by
    rw [show (53 : Int) = (53 : ℕ) from rfl, hlog]
    omega
  rw [exponentOf_eq hn hd, hvalue]
  rcases hfull with hfull | rfl
  · have hleading : (52 : Int) + e ≤ Int.log 2 ((m : ℚ) * 2 ^ e) := (hlog 52).mpr hfull
    omega
  · omega

/-- A number is the nearest one to its own value. -/
theorem ofRatio_of_isNumber (h : (finite negative m e).IsNumber) (hm : m ≠ 0) (hd : d ≠ 0)
    (hvalue : (n : ℚ) / d = m * 2 ^ e) : ofRatio negative n d = finite negative m e := by
  have hunit : (0 : ℚ) < 2 ^ e := zpow_pos two_pos e
  have hn : n ≠ 0 := by
    rintro rfl
    have hpos : (0 : ℚ) < m := by exact_mod_cast Nat.pos_of_ne_zero hm
    rw [Nat.cast_zero, zero_div] at hvalue
    exact absurd hvalue (mul_pos hpos hunit).ne
  have hmantissa : halfEven (n * Nat.pow 2 (-e).toNat) (d * Nat.pow 2 e.toNat) = m := by
    have hpow : 0 < d * 2 ^ e.toNat := Nat.mul_pos (Nat.pos_of_ne_zero hd) (by positivity)
    have hround := roundEven_intCast m
    rw [← Int.natCast_inj, Nat.pow_eq, Nat.pow_eq, ← roundEven_div _ hpow, div_shifted, hvalue,
      mul_div_cancel_right₀ _ hunit.ne']
    exact_mod_cast hround
  have hexponent := exponentOf_of_isNumber h hn hd hvalue
  obtain ⟨hbits, -, -, hhigh⟩ := h
  have hcarry : m ≠ Nat.pow 2 53 := hbits.ne
  simp only [ofRatio, if_neg hn, hexponent, hmantissa, if_neg hcarry, if_neg hhigh.not_gt]

/-! ## Powers of ten -/

theorem adjusted_eq_of_magnitude (hc : c ≠ 0) (hc' : c' ≠ 0)
    (h : Decimal.magnitude c x = Decimal.magnitude c' x') : adjusted c x = adjusted c' x' := by
  rw [← Decimal.log_magnitude hc, ← Decimal.log_magnitude hc', h]

theorem div_powerOfTen (c : Nat) (x : Int) :
    ((c * Nat.pow 10 x.toNat : Nat) : ℚ) / (Nat.pow 10 (-x).toNat : Nat) =
      Decimal.magnitude c x := by
  rw [Decimal.magnitude, zpow_eq_div (by norm_num) x]
  simp only [Nat.pow_eq]
  push_cast
  ring

theorem ten_pow_ne_zero (k : Nat) : Nat.pow 10 k ≠ 0 :=
  (Nat.pow_pos (by decide)).ne'

/-- The nearest number depends on the value of a coefficient with a power of ten only. -/
theorem ofPowerOfTen_congr (h : Decimal.magnitude c x = Decimal.magnitude c' x') :
    ofPowerOfTen negative c x = ofPowerOfTen negative c' x' := by
  have hzero : c = 0 ↔ c' = 0 := by
    rw [← Decimal.magnitude_eq_zero_iff (e := x), h, Decimal.magnitude_eq_zero_iff]
  by_cases hc : c = 0
  · rw [ofPowerOfTen, if_pos hc, ofPowerOfTen, if_pos (hzero.mp hc)]
  · have hc' : c' ≠ 0 := fun h => hc (hzero.mpr h)
    have hratio : ofRatio negative _ _ = ofRatio negative _ _ :=
      ofRatio_congr (ten_pow_ne_zero (-x).toNat) (ten_pow_ne_zero (-x').toNat)
        ((div_powerOfTen c x).trans (h.trans (div_powerOfTen c' x').symm))
    rw [ofPowerOfTen, ofPowerOfTen, adjusted_eq_of_magnitude hc hc' h, hratio, if_neg hc,
      if_neg hc']

theorem two_pow_le_ten_pow : (2 : ℚ) ^ 1200 ≤ 10 ^ 400 :=
  calc (2 : ℚ) ^ 1200 = (2 ^ 3) ^ 400 := by rw [← pow_mul]
    _ ≤ 10 ^ 400 := pow_le_pow_left₀ (by norm_num) (by norm_num) 400

/-- The powers of ten that are not computed are beyond every number. -/
theorem value_bounds (h : (finite negative m e).IsNumber) (hm : m ≠ 0) :
    (10 : ℚ) ^ (-400 : Int) ≤ m * 2 ^ e ∧ (m : ℚ) * 2 ^ e < 10 ^ (401 : Int) := by
  obtain ⟨hbits, -, hlow, hhigh⟩ := h
  have hone : (1 : ℚ) ≤ m := by exact_mod_cast Nat.one_le_iff_ne_zero.mpr hm
  have hunit : (0 : ℚ) < 2 ^ e := zpow_pos two_pos e
  have hlow' : (-1200 : Int) ≤ e := le_trans (by decide) hlow
  have hhigh' : (53 : Int) + e ≤ 1200 := le_trans (Int.add_le_add_left hhigh 53) (by decide)
  constructor
  · calc (10 : ℚ) ^ (-400 : Int) = (10 ^ 400)⁻¹ := by rw [zpow_neg]; rfl
      _ ≤ (2 ^ 1200)⁻¹ := inv_anti₀ (by positivity) two_pow_le_ten_pow
      _ = 2 ^ (-1200 : Int) := by rw [zpow_neg]; rfl
      _ ≤ 2 ^ e := zpow_le_zpow_right₀ one_le_two hlow'
      _ ≤ m * 2 ^ e := le_mul_of_one_le_left hunit.le hone
  · have hmantissa : (m : ℚ) < 2 ^ (53 : Int) := by exact_mod_cast hbits
    calc (m : ℚ) * 2 ^ e < 2 ^ (53 : Int) * 2 ^ e := mul_lt_mul_of_pos_right hmantissa hunit
      _ = 2 ^ (53 + e) := (zpow_add₀ two_ne_zero 53 e).symm
      _ ≤ 2 ^ (1200 : Int) := zpow_le_zpow_right₀ one_le_two hhigh'
      _ ≤ 10 ^ (400 : Int) := by exact_mod_cast two_pow_le_ten_pow
      _ ≤ 10 ^ (401 : Int) := zpow_le_zpow_right₀ (by norm_num) (by decide)

/-- A coefficient with a power of ten that has the value of a number denotes it. -/
theorem ofPowerOfTen_of_isNumber (h : (finite negative m e).IsNumber) (hm : m ≠ 0)
    (hvalue : Decimal.magnitude c x = m * 2 ^ e) :
    ofPowerOfTen negative c x = finite negative m e := by
  obtain ⟨hlow, hhigh⟩ := value_bounds h hm
  have hc : c ≠ 0 := by
    rintro rfl
    rw [Decimal.magnitude_eq_zero_iff.mpr rfl] at hvalue
    rw [← hvalue] at hlow
    exact absurd hlow (not_le.mpr (zpow_pos (by norm_num) _))
  have hleast : -400 ≤ adjusted c x := by rwa [Decimal.le_adjusted_iff hc, hvalue]
  have hmost : ¬ 401 ≤ adjusted c x := by rwa [Decimal.le_adjusted_iff hc, hvalue, not_le]
  rw [ofPowerOfTen, if_neg hc, if_neg (by omega), if_neg (by omega)]
  exact ofRatio_of_isNumber h hm (ten_pow_ne_zero _) ((div_powerOfTen c x).trans hvalue)

/-- The sign has no part in what is nearest. -/
theorem ofPowerOfTen_sign (h : ofPowerOfTen false c x = finite false m e) :
    ofPowerOfTen negative c x = finite negative m e := by
  unfold ofPowerOfTen ofRatio at h ⊢
  dsimp only at h ⊢
  split_ifs at h ⊢ <;> cases h <;> rfl

end Cambio.Binary64
