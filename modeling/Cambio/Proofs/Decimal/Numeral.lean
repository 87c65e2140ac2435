import Cambio.Decimal.Printer
import Cambio.Decimal.Reader
import Cambio.Proofs.Decimal.Value

/-!
# Numerals

A numeral is a sign and basic digits with at most one point among them. Positional notation is
made of numerals, and so is what is typed on a keypad. Reading takes a numeral by its digits as they
stand, so that a decimal in positional notation is read back with the same digits.

## Main definitions

- `Decimal.Numeral` — the parts of a numeral, `Decimal.Numeral.text` as they are written
- `Decimal.Numeral.read` — the decimal of its digits
- `Decimal.IsHeld` — a decimal of which the power of ten is in the range of decimals

## Main statements

- `Decimal.Numeral.parse_text` — numerals are read by their digits
- `Decimal.exists_numeral_fixed` — positional notation is a numeral
- `Decimal.parse_fixed` — positional notation is read back
- `Decimal.fixed_expanded` — and written in the same way again
-/

namespace Cambio.Decimal

/-! ## Digits -/

theorem isBasicDigit_iff {c : Char} : isBasicDigit c = true ↔ 48 ≤ c.toNat ∧ c.toNat ≤ 57 := by
  simp only [isBasicDigit, Bool.and_eq_true, decide_eq_true_eq]
  exact Iff.rfl

theorem isBasicDigit_eq_isDigit (c : Char) : isBasicDigit c = c.isDigit := by
  rw [Bool.eq_iff_iff, isBasicDigit_iff, Char.isDigit_iff_toNat]
  exact Iff.rfl

theorem digitsValue_eq (start : Nat) (ds : List Char) :
    digitsValue start ds = Nat.ofDigitChars 10 ds start := by
  simp only [digitsValue, Nat.ofDigitChars_eq_foldl, Nat.mul_comm]
  rfl

theorem digitsValue_append (start : Nat) (ds es : List Char) :
    digitsValue start (ds ++ es) = digitsValue (digitsValue start ds) es :=
  List.foldl_append

theorem digitsValue_digits (n : Nat) : digitsValue 0 (digits n) = n := by
  rw [digitsValue_eq]
  exact Nat.ofDigitChars_ten_toDigits

theorem digitsValue_replicate (start count : Nat) :
    digitsValue start (List.replicate count '0') = start * 10 ^ count := by
  rw [digitsValue_eq, Nat.ofDigitChars_replicate_zero, Nat.mul_comm]

/-- Digits are fewer than the power of ten of their count. -/
theorem digitsValue_lt {ds : List Char} (h : ∀ c ∈ ds, isBasicDigit c = true) :
    digitsValue 0 ds < 10 ^ ds.length := by
  induction ds using List.reverseRecOn with
  | nil => decide
  | append_singleton ds c ih =>
    have hc := isBasicDigit_iff.mp (h c (by simp))
    have hds := ih fun d hd => h d (by simp [hd])
    rw [digitsValue_append, List.length_append, List.length_singleton, Nat.pow_succ]
    show digitsValue 0 ds * 10 + (c.toNat - 0x30) < _
    omega

theorem isBasicDigit_of_mem_digits {n : Nat} {c : Char} (h : c ∈ digits n) :
    isBasicDigit c = true := by
  rw [isBasicDigit_eq_isDigit]
  exact Nat.isDigit_of_mem_toDigits (by decide) (Nat.le_refl 10) h

theorem digits_ne_nil (n : Nat) : digits n ≠ [] :=
  Nat.toDigits_ne_nil

theorem digits_mul_pow {n : Nat} (hn : n ≠ 0) (count : Nat) :
    digits (n * 10 ^ count) = digits n ++ List.replicate count '0' := by
  induction count with
  | zero => rw [Nat.pow_zero, Nat.mul_one, List.replicate_zero, List.append_nil]
  | succ count ih =>
    have hpos : 0 < n * 10 ^ count :=
      Nat.mul_pos (Nat.pos_of_ne_zero hn) (Nat.pow_pos (by decide))
    calc digits (n * 10 ^ (count + 1))
        = Nat.toDigits 10 (10 * (n * 10 ^ count) + 0) := by
          rw [Nat.pow_succ, Nat.add_zero, ← Nat.mul_assoc, Nat.mul_comm _ 10]
          rfl
      _ = digits (n * 10 ^ count) ++ ['0'] :=
          (Nat.toDigits_append_toDigits (by decide) hpos (by decide)).symm
      _ = digits n ++ List.replicate (count + 1) '0' := by
          rw [ih, List.append_assoc, ← List.replicate_succ']

/-! ## Characters that need no change -/

/-- A basic digit, a point or a minus sign. -/
def IsPlain (c : Char) : Prop :=
  isBasicDigit c = true ∨ c = '.' ∨ c = '-'

theorem IsPlain.toNat_mem {c : Char} (h : IsPlain c) : 45 ≤ c.toNat ∧ c.toNat ≤ 57 := by
  rcases h with hdigit | rfl | rfl
  · have hbounds := isBasicDigit_iff.mp hdigit
    omega
  · decide
  · decide

theorem IsPlain.isBlank {c : Char} (h : IsPlain c) : Text.isBlank c = false := by
  have hbounds := h.toNat_mem
  simp only [Text.isBlank, Bool.or_eq_false_iff, Bool.and_eq_false_iff, decide_eq_false_iff_not,
    beq_eq_false_iff_ne]
  omega

theorem IsPlain.ne_underscore {c : Char} (h : IsPlain c) : c ≠ '_' := by
  rintro rfl
  have hbounds := h.toNat_mem
  revert hbounds
  decide

theorem IsPlain.plainChar {c : Char} (h : IsPlain c) : plainChar c = some c := by
  have hbounds := h.toNat_mem
  exact if_pos (by omega)

theorem trim_of_forall {s : List Char} (h : ∀ c ∈ s, Text.isBlank c = false) : Text.trim s = s := by
  have hkeep {t : List Char} (ht : ∀ c ∈ t, Text.isBlank c = false) :
      t.dropWhile Text.isBlank = t := by
    cases t with
    | nil => rfl
    | cons c t => rw [List.dropWhile_cons, ht c List.mem_cons_self, if_neg Bool.false_ne_true]
  rw [Text.trim, Text.trimBy, hkeep h, hkeep fun c hc => h c (List.mem_reverse.mp hc),
    List.reverse_reverse]

/-- A character that is read as it stands. -/
structure Stays (c : Char) : Prop where
  isBlank : Text.isBlank c = false
  ne_underscore : c ≠ '_'
  plainChar : plainChar c = some c

theorem IsPlain.stays {c : Char} (h : IsPlain c) : Stays c :=
  ⟨h.isBlank, h.ne_underscore, h.plainChar⟩

/-- A text without blanks and underscores is read character by character. -/
theorem plainText_eq_mapM {s : List Char} (h : ∀ c ∈ s, Text.isBlank c = false ∧ c ≠ '_') :
    plainText s = s.mapM plainChar := by
  have hfilter : s.filter (· ≠ '_') = s :=
    List.filter_eq_self.mpr fun c hc => by simpa using (h c hc).2
  rw [plainText, trim_of_forall fun c hc => (h c hc).1, hfilter]

theorem mapM_plainChar_eq_some {s : List Char} {f : Char → Char}
    (h : ∀ c ∈ s, plainChar c = some (f c)) :
    s.mapM plainChar = some (s.map f) := by
  induction s with
  | nil => rfl
  | cons c s ih =>
    rw [List.mapM_cons, h c List.mem_cons_self, ih fun d hd => h d (List.mem_cons_of_mem _ hd)]
    rfl

theorem plainText_of_stays {s : List Char} (h : ∀ c ∈ s, Stays c) : plainText s = some s := by
  have hstays : s.mapM plainChar = some (s.map id) :=
    mapM_plainChar_eq_some fun c hc => (h c hc).plainChar
  rw [plainText_eq_mapM fun c hc => ⟨(h c hc).isBlank, (h c hc).ne_underscore⟩, hstays, List.map_id]

theorem plainText_of_forall {s : List Char} (h : ∀ c ∈ s, IsPlain c) : plainText s = some s :=
  plainText_of_stays fun c hc => (h c hc).stays

/-! ## The parts of a numeral -/

/-- A sign and basic digits, with a point before the last of them or without one. -/
structure Numeral where
  negative : Bool
  /-- The digits before the point. -/
  whole : List Char
  /-- The digits after the point, if there is one. -/
  fraction : Option (List Char)
  isBasicDigit_of_mem : ∀ c ∈ whole ++ fraction.getD [], isBasicDigit c = true

namespace Numeral

variable (n : Numeral)

/-- All digits. -/
def digits : List Char :=
  n.whole ++ n.fraction.getD []

/-- The count of digits after the point. -/
def places : Nat :=
  (n.fraction.getD []).length

/-- The numeral without its sign. -/
def body : List Char :=
  match n.fraction with
  | none => n.whole
  | some ds => n.whole ++ '.' :: ds

/-- The numeral as it is written. -/
def text : List Char :=
  signText n.negative ++ n.body

/-- The decimal of the digits, of which there has to be one at least. -/
def read : Except Signal Decimal :=
  if n.digits = [] then .error .conversionSyntax
  else bounded n.negative (digitsValue 0 n.digits) (-(n.places : Int))

theorem isBasicDigit_of_mem_whole {c : Char} (h : c ∈ n.whole) : isBasicDigit c = true :=
  n.isBasicDigit_of_mem c (List.mem_append_left _ h)

theorem isBasicDigit_of_mem_fraction {ds : List Char} (h : n.fraction = some ds) {c : Char}
    (hc : c ∈ ds) : isBasicDigit c = true :=
  n.isBasicDigit_of_mem c (List.mem_append_right _ (by rwa [h]))

theorem body_eq_of_none (h : n.fraction = none) : n.body = n.whole := by
  rw [body, h]

theorem body_eq_of_some {ds : List Char} (h : n.fraction = some ds) :
    n.body = n.whole ++ '.' :: ds := by
  rw [body, h]

theorem exists_body : ∃ tail, n.body = n.whole ++ tail := by
  cases hfraction : n.fraction with
  | none => exact ⟨[], by rw [n.body_eq_of_none hfraction, List.append_nil]⟩
  | some ds => exact ⟨'.' :: ds, n.body_eq_of_some hfraction⟩

theorem digit_or_point_of_mem_body {c : Char} (h : c ∈ n.body) :
    isBasicDigit c = true ∨ c = '.' := by
  cases hfraction : n.fraction with
  | none =>
    rw [n.body_eq_of_none hfraction] at h
    exact .inl (n.isBasicDigit_of_mem_whole h)
  | some ds =>
    rw [n.body_eq_of_some hfraction, List.mem_append, List.mem_cons] at h
    rcases h with hwhole | hpoint | hds
    · exact .inl (n.isBasicDigit_of_mem_whole hwhole)
    · exact .inr hpoint
    · exact .inl (n.isBasicDigit_of_mem_fraction hfraction hds)

theorem isPlain_of_mem_text {c : Char} (h : c ∈ n.text) : IsPlain c := by
  rcases List.mem_append.mp h with hsign | hbody
  · cases hnegative : n.negative with
    | true =>
      rw [hnegative] at hsign
      exact .inr (.inr (List.mem_singleton.mp hsign))
    | false =>
      rw [hnegative] at hsign
      cases hsign
  · exact (n.digit_or_point_of_mem_body hbody).imp_right .inl

/-! ## Reading -/

theorem splitSign_text : splitSign n.text = (n.negative, n.body) := by
  cases hnegative : n.negative with
  | true =>
    rw [text, hnegative]
    rfl
  | false =>
    rw [text, hnegative]
    -- no digit is a sign, and neither is the point
    change splitSign n.body = _
    unfold splitSign
    split
    · next rest hbody =>
      rcases n.digit_or_point_of_mem_body (hbody ▸ List.mem_cons_self) with h | h <;>
        exact absurd h (by decide)
    · next rest hbody =>
      rcases n.digit_or_point_of_mem_body (hbody ▸ List.mem_cons_self) with h | h <;>
        exact absurd h (by decide)
    · rfl

theorem takeWhile_digits {ds : List Char} (rest : List Char) (hds : ∀ c ∈ ds, isBasicDigit c = true)
    (hrest : ∀ c, rest.head? = some c → isBasicDigit c = false) :
    (ds ++ rest).takeWhile isBasicDigit = ds ∧ (ds ++ rest).dropWhile isBasicDigit = rest := by
  rw [List.takeWhile_append_of_pos hds, List.dropWhile_append_of_pos hds]
  cases rest with
  | nil => simp
  | cons c rest => simp [hrest c rfl]

theorem parseMagnitude_body :
    parseMagnitude n.body =
      if n.digits = [] then none else some (digitsValue 0 n.digits, -(n.places : Int)) := by
  cases hfraction : n.fraction with
  | none =>
    have hsplit := takeWhile_digits [] (fun c => n.isBasicDigit_of_mem_whole (c := c))
      (by simp)
    rw [List.append_nil] at hsplit
    simp [parseMagnitude, n.body_eq_of_none hfraction, hsplit, digits, places, hfraction,
      parseExponent, digitsValue]
  | some ds =>
    have hwhole := takeWhile_digits ('.' :: ds)
      (fun c => n.isBasicDigit_of_mem_whole (c := c)) (by simp; decide)
    have hds := takeWhile_digits []
      (fun c => n.isBasicDigit_of_mem_fraction hfraction (c := c)) (by simp)
    rw [List.append_nil] at hds
    simp [parseMagnitude, n.body_eq_of_some hfraction, hwhole, hds, digits, places, hfraction,
      parseExponent, digitsValue_append]

theorem body_of_digits_eq_nil (h : n.digits = []) : n.body = [] ∨ n.body = ['.'] := by
  obtain ⟨hwhole, hds⟩ := List.append_eq_nil_iff.mp h
  cases hfraction : n.fraction with
  | none => exact .inl (by rw [n.body_eq_of_none hfraction, hwhole])
  | some ds =>
    rw [hfraction] at hds
    exact .inr (by rw [n.body_eq_of_some hfraction, hwhole, show ds = [] from hds]; rfl)

/-- A numeral is read by its digits as they stand. -/
theorem parse_text : parse n.text = n.read := by
  rw [parse, plainText_of_forall fun c => n.isPlain_of_mem_text (c := c)]
  dsimp only
  rw [n.splitSign_text]
  dsimp only
  rw [n.parseMagnitude_body, read]
  by_cases h : n.digits = []
  · rw [if_pos h, if_pos h]
    rcases n.body_of_digits_eq_nil h with hbody | hbody <;> rw [hbody] <;> rfl
  · rw [if_neg h, if_neg h]

end Numeral

/-! ## Positional notation -/

/-- Digits with zeros before them where there are too few for some places. -/
def filled (ds : List Char) (places : Nat) : List Char :=
  List.replicate (places + 1 - ds.length) '0' ++ ds

section Filled

variable {ds : List Char} {places : Nat}

theorem isBasicDigit_of_mem_filled (hds : ∀ c ∈ ds, isBasicDigit c = true) {c : Char}
    (h : c ∈ filled ds places) : isBasicDigit c = true := by
  rcases List.mem_append.mp h with hzero | hdigit
  · rw [List.eq_of_mem_replicate hzero]
    rfl
  · exact hds c hdigit

theorem digitsValue_filled (ds : List Char) (places : Nat) :
    digitsValue 0 (filled ds places) = digitsValue 0 ds := by
  rw [filled, digitsValue_append, digitsValue_replicate, Nat.zero_mul]

theorem lt_length_filled (ds : List Char) (places : Nat) : places < (filled ds places).length := by
  rw [filled, List.length_append, List.length_replicate]
  omega

/-- The digits of a text with the point before the last of them. -/
def placed (negative : Bool) (hds : ∀ c ∈ ds, isBasicDigit c = true) (places : Nat) : Numeral where
  negative := negative
  whole := (filled ds places).take ((filled ds places).length - places)
  fraction := some ((filled ds places).drop ((filled ds places).length - places))
  isBasicDigit_of_mem := by
    rw [Option.getD_some, List.take_append_drop]
    exact fun c => isBasicDigit_of_mem_filled hds

theorem text_placed (negative : Bool) (hds : ∀ c ∈ ds, isBasicDigit c = true)
    (hplaces : places ≠ 0) :
    (placed negative hds places).text = signText negative ++ placePoint ds places := by
  rw [placePoint, if_neg hplaces]
  rfl

theorem digits_placed (negative : Bool) (hds : ∀ c ∈ ds, isBasicDigit c = true) (places : Nat) :
    (placed negative hds places).digits = filled ds places := by
  rw [Numeral.digits, placed, Option.getD_some, List.take_append_drop]

theorem places_placed (negative : Bool) (hds : ∀ c ∈ ds, isBasicDigit c = true) (places : Nat) :
    (placed negative hds places).places = places := by
  have hlength := lt_length_filled ds places
  rw [Numeral.places, placed, Option.getD_some, List.length_drop]
  omega

theorem whole_placed_ne_nil (negative : Bool) (hds : ∀ c ∈ ds, isBasicDigit c = true)
    (places : Nat) : (placed negative hds places).whole ≠ [] := by
  have hlength := lt_length_filled ds places
  intro hnil
  have hzero := congrArg List.length hnil
  rw [placed, List.length_take, List.length_nil] at hzero
  omega

end Filled

/-- Digits with a point among them have the same value, with zeros before them where there are too
    few. -/
theorem exists_numeral_placePoint (negative : Bool) {ds : List Char} (places : Nat) (hnil : ds ≠ [])
    (hds : ∀ c ∈ ds, isBasicDigit c = true) :
    ∃ n : Numeral, n.text = signText negative ++ placePoint ds places ∧ n.negative = negative ∧
      n.whole ≠ [] ∧ digitsValue 0 n.digits = digitsValue 0 ds ∧ n.places = places := by
  by_cases hplaces : places = 0
  · refine ⟨⟨negative, ds, none, by simpa using hds⟩, ?_, rfl, hnil, ?_, hplaces.symm⟩
    · rw [placePoint, if_pos hplaces]
      rfl
    · change digitsValue 0 (ds ++ []) = _
      rw [List.append_nil]
  · refine ⟨placed negative hds places, text_placed negative hds hplaces, rfl,
      whole_placed_ne_nil negative hds places, ?_, places_placed negative hds places⟩
    rw [digits_placed, digitsValue_filled]

/-- The coefficient in positional notation: without a fraction, the zeros up to the units belong to
    it. -/
def unitsCoefficient (coefficient : Nat) (exponent : Int) : Nat :=
  coefficient * 10 ^ exponent.toNat

/-- A decimal in positional notation is a numeral. -/
theorem exists_numeral_fixed (negative : Bool) (c : Nat) (e : Int) :
    ∃ n : Numeral, n.text = fixed (.finite negative c e) ∧ n.negative = negative ∧ n.whole ≠ [] ∧
      digitsValue 0 n.digits = unitsCoefficient c e ∧ n.places = (-e).toNat := by
  rw [fixed, positional]
  by_cases he : 0 ≤ e
  · have hplaces : (-e).toNat = 0 := by omega
    rw [if_pos he, hplaces]
    by_cases hc : c = 0
    · rw [if_pos hc, hc, unitsCoefficient, Nat.zero_mul]
      exact exists_numeral_placePoint negative 0 (List.cons_ne_nil _ _) (by simp; rfl)
    · rw [if_neg hc]
      have hdigits : ∀ x ∈ digits c ++ List.replicate e.toNat '0', isBasicDigit x = true := by
        intro x hx
        rcases List.mem_append.mp hx with hdigit | hzero
        · exact isBasicDigit_of_mem_digits hdigit
        · rw [List.eq_of_mem_replicate hzero]
          rfl
      have hvalue : digitsValue 0 (digits c ++ List.replicate e.toNat '0') =
          unitsCoefficient c e := by
        rw [digitsValue_append, digitsValue_digits, digitsValue_replicate, unitsCoefficient]
      have hnil : digits c ++ List.replicate e.toNat '0' ≠ [] :=
        List.append_ne_nil_of_left_ne_nil (digits_ne_nil c) _
      rw [← hvalue]
      exact exists_numeral_placePoint negative 0 hnil hdigits
  · have hunits : unitsCoefficient c e = digitsValue 0 (digits c) := by
      rw [digitsValue_digits, unitsCoefficient, Int.toNat_of_nonpos (by omega), Nat.pow_zero,
        Nat.mul_one]
    rw [if_neg he, hunits]
    exact exists_numeral_placePoint negative _ (digits_ne_nil c)
      fun x hx => isBasicDigit_of_mem_digits hx

/-! ## Reading back -/

/-- A decimal is finite and its power of ten in the range of decimals, which is far wider than that
    of results. -/
def IsHeld : Decimal → Prop
  | .finite _ c e => (if c = 0 then e else adjusted c e) ≤ widestExponent ∧ deepestExponent ≤ e
  | _ => False

instance : DecidablePred IsHeld
  | .finite _ _ _ => instDecidableAnd
  | .infinite _ | .nan _ _ _ => instDecidableFalse

theorem bounded_eq_ok_iff {negative : Bool} {c : Nat} {e : Int} {d : Decimal} :
    bounded negative c e = .ok d ↔ d = .finite negative c e ∧ d.IsHeld := by
  by_cases h : (finite negative c e).IsHeld
  · have hok : bounded negative c e = .ok (.finite negative c e) := if_pos h
    rw [hok, Except.ok.injEq]
    constructor
    · rintro rfl
      exact ⟨rfl, h⟩
    · rintro ⟨rfl, -⟩
      rfl
  · have herror : bounded negative c e = .error .invalidOperation := if_neg h
    rw [herror]
    refine iff_of_false (fun hok => by cases hok) ?_
    rintro ⟨rfl, hheld⟩
    exact h hheld

theorem isFinite_of_isHeld {d : Decimal} (h : d.IsHeld) : d.isFinite = true := by
  cases d with
  | finite => rfl
  | infinite | nan => cases h

theorem isFinite_of_parseSpecial {negative : Bool} {s : List Char} {d : Decimal}
    (h : parseSpecial negative s = some d) : d.isFinite = false := by
  unfold parseSpecial at h
  split_ifs at h
  · cases h
    rfl
  · split at h
    iterate 2
      split_ifs at h
      cases h
      rfl
    cases h

/-- A finite decimal that is read is held. -/
theorem isHeld_of_parse {s : List Char} {d : Decimal} (h : parse s = .ok d)
    (hfinite : d.isFinite = true) : d.IsHeld := by
  unfold parse at h
  split at h
  · cases h
  · dsimp only at h
    split at h
    · obtain ⟨-, hheld⟩ := bounded_eq_ok_iff.mp h
      exact hheld
    · split at h
      · next hspecial =>
        cases h
        rw [isFinite_of_parseSpecial hspecial] at hfinite
        cases hfinite
      · cases h

theorem expanded_finite (negative : Bool) (c : Nat) (e : Int) :
    expanded (.finite negative c e) =
      .finite negative (unitsCoefficient c e) (-((-e).toNat : Int)) := by
  by_cases he : 0 < e
  · rw [expanded, if_pos he, Int.toNat_of_nonpos (by omega : -e ≤ 0)]
    rfl
  · have hexponent : -((-e).toNat : Int) = e := by omega
    rw [expanded, if_neg he, unitsCoefficient, Int.toNat_of_nonpos (by omega : e ≤ 0), Nat.pow_zero,
      Nat.mul_one, hexponent]

/-- Writing out the zeros up to the units leaves a decimal in range. -/
theorem IsHeld.expanded {d : Decimal} (h : d.IsHeld) : d.expanded.IsHeld := by
  obtain ⟨negative, c, e, rfl⟩ := eq_finite_of_isFinite (isFinite_of_isHeld h)
  by_cases he : 0 < e
  · rw [Decimal.expanded, if_pos he]
    obtain ⟨htop, -⟩ := h
    by_cases hc : c = 0
    · rw [hc, Nat.zero_mul]
      exact ⟨by decide, by decide⟩
    · have hscale := adjusted_scale hc e e.toNat
      rw [Int.toNat_of_nonneg (by omega), Int.sub_self] at hscale
      have hpow : c * Nat.pow 10 e.toNat ≠ 0 := Nat.mul_ne_zero hc (Nat.pow_pos (by decide)).ne'
      rw [if_neg hc, ← hscale] at htop
      refine ⟨?_, by decide⟩
      rw [if_neg hpow]
      exact htop
  · rw [Decimal.expanded, if_neg he]
    exact h

/-- Positional notation is read back with all its digits. -/
theorem parse_fixed {d : Decimal} (h : d.IsHeld) : parse d.fixed = .ok d.expanded := by
  have hexpanded := h.expanded
  obtain ⟨negative, c, e, rfl⟩ := eq_finite_of_isFinite (isFinite_of_isHeld h)
  obtain ⟨n, htext, hnegative, hwhole, hvalue, hplaces⟩ := exists_numeral_fixed negative c e
  have hdigits : n.digits ≠ [] := List.append_ne_nil_of_left_ne_nil hwhole _
  rw [← htext, n.parse_text, Numeral.read, if_neg hdigits, hnegative, hvalue, hplaces,
    bounded_eq_ok_iff]
  exact ⟨expanded_finite negative c e, hexpanded⟩

/-- Writing out the zeros up to the units does not change the value. -/
theorem value_expanded (d : Decimal) : d.expanded.value = d.value := by
  cases d with
  | finite negative c e =>
    by_cases he : 0 < e
    · have hmagnitude := magnitude_eq_lower (show (0 : Int) ≤ e by omega) c
      rw [Int.sub_zero] at hmagnitude
      rw [expanded, if_pos he, value, value, hmagnitude]
      rfl
    · rw [expanded, if_neg he]
  | infinite | nan => rfl

/-- Positional notation does not tell whether the zeros up to the units were written out. -/
theorem fixed_expanded (d : Decimal) : d.expanded.fixed = d.fixed := by
  cases d with
  | finite negative c e =>
    by_cases he : 0 < e
    · rw [expanded, if_pos he, fixed, fixed, positional, positional, if_pos (Int.le_refl 0),
        if_pos he.le]
      by_cases hc : c = 0
      · rw [hc, Nat.zero_mul, if_pos rfl, if_pos rfl]
      · have hpow : c * Nat.pow 10 e.toNat ≠ 0 := Nat.mul_ne_zero hc (Nat.pow_pos (by decide)).ne'
        rw [if_neg hc, if_neg hpow, Int.toNat_zero, List.replicate_zero, List.append_nil]
        congr 1
        exact digits_mul_pow hc e.toNat
    · rw [expanded, if_neg he]
  | infinite | nan => rfl

end Cambio.Decimal
