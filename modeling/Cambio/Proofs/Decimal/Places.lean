import Cambio.Proofs.Decimal.Numeral

/-!
# Forms of a value with a count of places

A decimal that is written with a given count of places shows its value and its sign, not its form:
two forms of one value are written alike, unless they are zeros of different signs.

## Main statements

- `Decimal.fixedPlaces_scale` — zeros at the end of a coefficient do not show
- `Decimal.fixedPlaces_congr` — two forms of one value are written alike
-/

namespace Cambio.Decimal

variable {c : Nat}

/-- All zeros of one sign are written alike. -/
theorem fixedPlaces_zero (places : Nat) (negative : Bool) (e : Int) :
    fixedPlaces places (.finite negative 0 e) = signText negative ++ placePoint ['0'] places := by
  have hdropped (count : Nat) : dropDigits 0 count = 0 := by
    rw [dropDigits]
    split
    · rfl
    · simp [halfEven]
  simp only [fixedPlaces, hdropped]
  split <;> rfl

/-- The zeros at the end of a coefficient are dropped, or they fill the places. -/
theorem fixedPlaces_scale (hc : c ≠ 0) (places : Nat) (negative : Bool) (e : Int) (k : Nat) :
    fixedPlaces places (.finite negative (c * 10 ^ k) (e - k)) =
      fixedPlaces places (.finite negative c e) := by
  have hscaled : c * 10 ^ k ≠ 0 := Nat.mul_ne_zero hc (Nat.pow_pos (by decide)).ne'
  simp only [fixedPlaces, if_neg hc, if_neg hscaled]
  obtain hdrop | hwhole := Int.lt_or_le 0 (-e - places)
  · have hcount : (-(e - k) - (places : Int)).toNat = (-e - places).toNat + k := by omega
    rw [if_pos hdrop, if_pos (by omega), hcount, dropDigits_scale hc]
  · rw [if_neg (not_lt.mpr hwhole)]
    obtain hzeros | hkeep := Int.lt_or_le 0 (-(e - k) - (places : Int))
    · -- some of the zeros are dropped, the others fill the places
      have hsum : k = (-(-e - (places : Int))).toNat + (-(e - k) - (places : Int)).toNat := by
        omega
      have hdropped := dropDigits_zeros hc (-(-e - (places : Int))).toNat
        (-(e - k) - (places : Int)).toNat
      rw [← hsum] at hdropped
      rw [if_pos hzeros, hdropped, digits_mul_pow hc]
    · have hfill : (-(-e - (places : Int))).toNat = k + (-(-(e - k) - (places : Int))).toNat := by
        omega
      rw [if_neg (not_lt.mpr hkeep), digits_mul_pow hc, List.append_assoc,
        List.replicate_append_replicate, ← hfill]

/-- Of two forms of a value other than zero, the one with the lower power of ten has more zeros. -/
theorem fixedPlaces_congr_of_le {m n : Bool} {d : Nat} {e f : Int} (hc : c ≠ 0) (hef : e ≤ f)
    (h : (finite m c e).sameValue (finite n d f) = true) (places : Nat) :
    fixedPlaces places (.finite m c e) = fixedPlaces places (.finite n d f) := by
  obtain ⟨rfl, k, rfl, rfl⟩ := eq_scale_of_sameValue hc hef h
  have hd : d ≠ 0 := by
    rintro rfl
    rw [Nat.zero_mul] at hc
    exact hc rfl
  exact fixedPlaces_scale hd places m f k

theorem fixedPlaces_congr {a b : Decimal} (ha : a.isFinite = true) (h : a.sameValue b = true)
    (hsign : a.isZero = true → a.isNegative = b.isNegative) (places : Nat) :
    a.fixedPlaces places = b.fixedPlaces places := by
  have hb : b.isFinite = true := (isFinite_eq_of_sameValue h).symm.trans ha
  obtain ⟨m, c, e, rfl⟩ := eq_finite_of_isFinite ha
  obtain ⟨n, d, f, rfl⟩ := eq_finite_of_isFinite hb
  have hboth : c = 0 ↔ d = 0 := eq_zero_iff_of_sameValue h
  by_cases hc : c = 0
  · have hmn : m = n := hsign (by rw [hc]; rfl)
    rw [hboth.mp hc, hc, hmn, fixedPlaces_zero, fixedPlaces_zero]
  · rcases Int.le_total e f with hef | hfe
    · exact fixedPlaces_congr_of_le hc hef h places
    · have hd : d ≠ 0 := fun hd => hc (hboth.mpr hd)
      exact (fixedPlaces_congr_of_le hd hfe (sameValue_symm rfl h) places).symm

end Cambio.Decimal
