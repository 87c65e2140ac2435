import Cambio.Proofs.Decimal.Exact
import Mathlib.Data.List.TakeWhile

/-!
# Room for digits

In positional notation a decimal may need very many digits. A result of arithmetic does not: its
leading power of ten is in a narrow range. Neither does a number that is read from a text without a
power of ten, which has no more digits before the point than the text has characters.

## Main definitions

- `Decimal.IsShort` — a decimal with the digits and the power of ten that results have
- `Decimal.longestResult` — the most characters of a result in positional notation
- `Decimal.LacksPower` — a text without the letter of a power of ten

## Main statements

- `Decimal.isShort_add`, `Decimal.isShort_mul`, `Decimal.isShort_div` — results are short
- `Decimal.IsShort.hasPlaces`, `Decimal.IsShort.length_fixed_le` — there is room for them
- `Decimal.hasPlaces_of_parse` — there is room for what a short text denotes
-/

namespace Cambio.Decimal

variable {a b d : Decimal} {c : Nat} {e : Int} {places : Nat}

theorem hasPlaces_finite_iff {negative : Bool} :
    hasPlaces places (.finite negative c e) = true ↔
      c = 0 ∨ digitCount c + e + places ≤ mostDigits := by
  simp only [hasPlaces, Bool.or_eq_true, beq_iff_eq, decide_eq_true_eq]

/-! ## Results -/

/-- A decimal with the digits and the power of ten that results have. -/
def IsShort : Decimal → Prop
  | .finite _ c e => digitCount c ≤ precision ∧ tinyExponent ≤ e ∧ adjusted c e ≤ maxExponent
  | _ => False

/-- Rounding leaves no more digits than the precision. -/
theorem digitCount_kept_le (c : Nat) (e : Int) : digitCount (kept c e).1 ≤ precision := by
  have hle : e + digitCount c - precision ≤ lowestKept c e := Int.le_max_left _ _
  unfold kept
  dsimp only
  by_cases hdrop : e < lowestKept c e
  · rw [if_pos hdrop]
    split
    · next hlong =>
      have hcount : digitCount c ≤ precision + (lowestKept c e - e).toNat := by omega
      rw [dropDigits_eq_pow hcount hlong]
      have hten : digitCount (10 ^ precision / 10) ≤ precision := by decide +kernel
      exact hten
    · next hshort => exact Nat.not_lt.mp hshort
  · rw [if_neg hdrop]
    dsimp only
    omega

theorem isShort_rounded {negative : Bool} (h : rounded negative c e = .ok d) : d.IsShort := by
  by_cases hc : c = 0
  · have htop : tinyExponent ≤ maxExponent := by decide
    rw [rounded, if_pos hc] at h
    cases h
    have hadjusted (x : Int) : adjusted 0 x = x := by
      rw [adjusted]
      change x + 1 - 1 = x
      omega
    refine ⟨by decide, by omega, ?_⟩
    rw [hadjusted]
    omega
  · rw [rounded_of_ne_zero hc] at h
    split_ifs at h with hover
    cases h
    exact ⟨digitCount_kept_le c e, tinyExponent_le_kept c e, Int.not_lt.mp hover⟩

theorem isShort_mul (ha : a.isFinite = true) (hb : b.isFinite = true) (h : a.mul b = .ok d) :
    d.IsShort := by
  obtain ⟨m, c, e, rfl⟩ := eq_finite_of_isFinite ha
  obtain ⟨n, c', e', rfl⟩ := eq_finite_of_isFinite hb
  exact isShort_rounded h

theorem isShort_add (ha : a.isFinite = true) (hb : b.isFinite = true) (h : a.add b = .ok d) :
    d.IsShort := by
  obtain ⟨m, c, e, rfl⟩ := eq_finite_of_isFinite ha
  obtain ⟨n, c', e', rfl⟩ := eq_finite_of_isFinite hb
  change addFinite m c e n c' e' = .ok d at h
  simp only [addFinite] at h
  split_ifs at h <;> exact isShort_rounded h

theorem isShort_sub (ha : a.isFinite = true) (hb : b.isFinite = true) (h : a.sub b = .ok d) :
    d.IsShort :=
  isShort_add ha (by rw [isFinite_negated, hb]) h

theorem isShort_div (ha : a.isFinite = true) (hb : b.isFinite = true) (h : a.div b = .ok d) :
    d.IsShort := by
  obtain ⟨m, c, e, rfl⟩ := eq_finite_of_isFinite ha
  obtain ⟨n, c', e', rfl⟩ := eq_finite_of_isFinite hb
  simp only [div, propagate?] at h
  split_ifs at h <;> exact isShort_rounded h

/-- The most characters of a result in positional notation: a sign, a nought, the point and the
    places down to the lowest power of ten. -/
def longestResult : Nat := 1000029

theorem length_placePoint_le (ds : List Char) (places : Nat) :
    (placePoint ds places).length ≤ max ds.length (places + 1) + 1 := by
  unfold placePoint
  split
  · omega
  · rw [List.length_append, List.length_cons, List.length_take, List.length_drop,
      List.length_append, List.length_replicate]
    omega

theorem length_signText_le (negative : Bool) : (signText negative).length ≤ 1 := by
  cases negative <;> decide

/-- There is room for a result in positional notation. -/
theorem IsShort.length_fixed_le (h : d.IsShort) : d.fixed.length ≤ longestResult := by
  cases d with
  | infinite | nan => exact h.elim
  | finite negative c e =>
    obtain ⟨hdigits, htiny, htop⟩ := h
    have hsign := length_signText_le negative
    have hprecision : precision = 28 := rfl
    have hlow : tinyExponent = -1000026 := rfl
    have hhigh : maxExponent = 999999 := rfl
    have hcount : (digits c).length = digitCount c := rfl
    rw [adjusted] at htop
    rw [fixed, List.length_append, positional, longestResult]
    split
    · split
      · rw [List.length_singleton]
        omega
      · rw [List.length_append, List.length_replicate]
        omega
    · have hplaced := length_placePoint_le (digits c) (-e).toNat
      omega

/-- There is room for a result with some places. -/
theorem IsShort.hasPlaces (h : d.IsShort) (hplaces : places ≤ 10) : d.hasPlaces places = true := by
  cases d with
  | infinite | nan => rfl
  | finite negative c e =>
    obtain ⟨-, -, htop⟩ := h
    have hmost : mostDigits = 1000000000000000000 := rfl
    have hhigh : maxExponent = 999999 := rfl
    rw [adjusted] at htop
    exact hasPlaces_finite_iff.mpr (.inr (by omega))

/-- There is room for a product, whatever is multiplied. -/
theorem hasPlaces_of_mul (h : a.mul b = .ok d) (hplaces : places ≤ 10) :
    d.hasPlaces places = true := by
  cases d with
  | infinite | nan => rfl
  | finite negative c e =>
    -- only finite factors have a finite product
    cases a with
    | finite =>
      cases b with
      | finite => exact (isShort_rounded h).hasPlaces hplaces
      | infinite =>
        simp only [mul, propagate?] at h
        split_ifs at h
        cases h
      | nan signaling => cases signaling <;> cases h
    | infinite =>
      cases b with
      | finite | infinite =>
        simp only [mul, propagate?] at h
        split_ifs at h
        cases h
      | nan signaling => cases signaling <;> cases h
    | nan signaling =>
      cases signaling with
      | true => cases h
      | false =>
        cases b with
        | finite | infinite => cases h
        | nan signaling => cases signaling <;> cases h

/-! ## Texts -/

/-- A text without the letter of a power of ten. -/
def LacksPower (s : List Char) : Prop :=
  'e' ∉ s ∧ 'E' ∉ s

theorem LacksPower.of_subset {s t : List Char} (h : LacksPower t) (hsub : s ⊆ t) : LacksPower s :=
  ⟨fun hmem => h.1 (hsub hmem), fun hmem => h.2 (hsub hmem)⟩

theorem parseExponent_of_lacksPower {s : List Char} (h : LacksPower s) {power : Int}
    (hpower : parseExponent s = some power) : power = 0 := by
  cases s with
  | nil =>
    cases hpower
    rfl
  | cons c s =>
    have hletter : ¬ (c = 'e' ∨ c = 'E') := by
      rintro (rfl | rfl)
      · exact h.1 List.mem_cons_self
      · exact h.2 List.mem_cons_self
    rw [parseExponent, if_neg hletter] at hpower
    cases hpower

/-- A magnitude without a power of ten has no more digits before the point than its text has
    characters. -/
theorem digitCount_of_parseMagnitude {s : List Char} (h : LacksPower s)
    (hread : parseMagnitude s = some (c, e)) : digitCount c + e ≤ s.length := by
  unfold parseMagnitude at hread
  set whole := s.takeWhile isBasicDigit with hwhole
  have hbasic : ∀ x ∈ whole, isBasicDigit x = true := fun x hx => List.mem_takeWhile_imp hx
  have hwholeLength : whole.length ≤ s.length := (List.takeWhile_sublist _).length_le
  have hdropped : s.dropWhile isBasicDigit ⊆ s := (List.dropWhile_sublist _).subset
  -- the digits are counted with those after the point, which the exponent takes off again
  have hcount {fraction rest : List Char} (hfraction : ∀ x ∈ fraction, isBasicDigit x = true)
      (hrest : rest ⊆ s)
      (hread : (if whole = [] ∧ fraction = [] then none
        else (parseExponent rest).map fun exponent : Int =>
          (digitsValue (digitsValue 0 whole) fraction, exponent - fraction.length)) =
            some (c, e)) : digitCount c + e ≤ s.length := by
    split_ifs at hread with hnone
    obtain ⟨power, hpower, hpair⟩ := Option.map_eq_some_iff.mp hread
    cases hpair
    rw [parseExponent_of_lacksPower (h.of_subset hrest) hpower, ← digitsValue_append]
    have hall : ∀ x ∈ whole ++ fraction, isBasicDigit x = true := by
      intro x hx
      rcases List.mem_append.mp hx with hx | hx
      · exact hbasic x hx
      · exact hfraction x hx
    have hpos : 0 < (whole ++ fraction).length := by
      rw [List.length_pos_iff]
      exact fun hnil => hnone (List.append_eq_nil_iff.mp hnil)
    have hle := (digitCount_le_iff hpos).mpr (digitsValue_lt hall)
    rw [List.length_append] at hle
    omega
  dsimp only at hread
  split at hread
  · next more hpoint =>
    have hmore : more ⊆ s := fun x hx => hdropped (hpoint ▸ List.mem_cons_of_mem _ hx)
    have hafter : more.dropWhile isBasicDigit ⊆ s :=
      fun x hx => hmore ((List.dropWhile_sublist _).subset hx)
    exact hcount (fun x hx => List.mem_takeWhile_imp hx) hafter hread
  · exact hcount (fun x hx => absurd hx List.not_mem_nil) hdropped hread

theorem plainChar_of_ne {x y : Char} (h : plainChar x = some y) (hx : x ≠ 'e' ∧ x ≠ 'E') :
    y ≠ 'e' ∧ y ≠ 'E' := by
  unfold plainChar at h
  split_ifs at h
  · cases h
    exact hx
  · cases h
    decide
  · obtain ⟨n, -, rfl⟩ := Option.map_eq_some_iff.mp h
    have hdigits : ∀ k < 10, Char.ofNat (0x30 + k) ≠ 'e' ∧ Char.ofNat (0x30 + k) ≠ 'E' := by
      decide
    exact hdigits (n % 10) (Nat.mod_lt _ (by decide))

theorem mapM_plainChar {s plain : List Char} (h : s.mapM plainChar = some plain) :
    plain.length = s.length ∧ ∀ y ∈ plain, ∃ x ∈ s, plainChar x = some y := by
  induction s generalizing plain with
  | nil =>
    cases h
    exact ⟨rfl, nofun⟩
  | cons x s ih =>
    rw [List.mapM_cons] at h
    obtain ⟨y, hy, hrest⟩ := Option.bind_eq_some_iff.mp h
    obtain ⟨ys, hys, hplain⟩ := Option.bind_eq_some_iff.mp hrest
    cases hplain
    obtain ⟨hlength, hmem⟩ := ih hys
    refine ⟨by rw [List.length_cons, List.length_cons, hlength], fun z hz => ?_⟩
    rcases List.mem_cons.mp hz with rfl | hz
    · exact ⟨x, List.mem_cons_self, hy⟩
    · obtain ⟨w, hw, hwz⟩ := hmem z hz
      exact ⟨w, List.mem_cons_of_mem _ hw, hwz⟩

/-- The basic characters of a text are not more, and no letter of a power of ten comes up. -/
theorem plainText_spec {s plain : List Char} (h : plainText s = some plain) :
    plain.length ≤ s.length ∧ (LacksPower s → LacksPower plain) := by
  have hsub : ((Text.trim s).filter (· ≠ '_')).Sublist s := by
    refine List.filter_sublist.trans ?_
    rw [Text.trim, Text.trimBy]
    have hlast := List.dropWhile_sublist (l := (s.dropWhile Text.isBlank).reverse) Text.isBlank
    have hends := hlast.reverse
    rw [List.reverse_reverse] at hends
    exact hends.trans (List.dropWhile_sublist _)
  obtain ⟨hcount, hmem⟩ := mapM_plainChar h
  refine ⟨hcount.trans_le hsub.length_le, fun hlacks => ?_⟩
  have hplain : ∀ y ∈ plain, y ≠ 'e' ∧ y ≠ 'E' := by
    intro y hy
    obtain ⟨x, hx, hxy⟩ := hmem y hy
    have hx := hsub.subset hx
    exact plainChar_of_ne hxy ⟨fun h => hlacks.1 (h ▸ hx), fun h => hlacks.2 (h ▸ hx)⟩
  exact ⟨fun hmem => (hplain _ hmem).1 rfl, fun hmem => (hplain _ hmem).2 rfl⟩

theorem splitSign_sublist (s : List Char) : (splitSign s).2.Sublist s := by
  unfold splitSign
  split
  · exact List.sublist_cons_self _ _
  · exact List.sublist_cons_self _ _
  · exact List.Sublist.refl _

/-- There is room for what a text without a power of ten denotes, if there is for its characters. -/
theorem hasPlaces_of_parse {s : List Char} (h : parse s = .ok d) (hlacks : LacksPower s)
    (hlength : (s.length : Int) + places ≤ mostDigits) : d.hasPlaces places = true := by
  unfold parse at h
  split at h
  · cases h
  · next plain hplain =>
    obtain ⟨hshorter, hlacks'⟩ := plainText_spec hplain
    have hbody := splitSign_sublist plain
    dsimp only at h
    split at h
    · next c e hread =>
      obtain ⟨rfl, -⟩ := bounded_eq_ok_iff.mp h
      have hcount := digitCount_of_parseMagnitude ((hlacks' hlacks).of_subset hbody.subset) hread
      have hle := hbody.length_le
      exact hasPlaces_finite_iff.mpr (.inr (by omega))
    · split at h
      · next hspecial =>
        cases h
        have hinfinite := isFinite_of_parseSpecial hspecial
        cases d with
        | finite => cases hinfinite
        | infinite | nan => rfl
      · cases h

end Cambio.Decimal
