import Cambio.Proofs.Decimal.Numeral

/-!
# Digits of every script

A digit of any script is read as the basic digit of the same value. A character that depicts a digit
without being one, such as a superscript, is not read, and no text that holds one is.

## Main definitions

- `Decimal.basicDigit` — the basic digit that a digit of any script is read as

## Main statements

- `Text.isBlank_of_isDigit` — no digit is taken for a blank
- `Decimal.plainText_eq_some`, `Decimal.plainText_eq_none` — texts of digits and points
-/

namespace Cambio

namespace Text

variable {c : Char}

/-- The first and the last character of every run of characters that depict a digit. -/
def digitRuns : List (Nat × Nat) :=
  (scriptZeros.map fun z => (z, z + 9)) ++ depictedDigits

theorem exists_run_of_isDigit (h : isDigit c = true) :
    ∃ run ∈ digitRuns, run.1 ≤ c.toNat ∧ c.toNat ≤ run.2 := by
  rcases Bool.or_eq_true_iff.mp h with hscript | hdepicted
  · rw [digitValue?, Option.isSome_map, List.find?_isSome] at hscript
    obtain ⟨z, hz, hc⟩ := hscript
    exact ⟨(z, z + 9), List.mem_append_left _ (List.mem_map_of_mem hz), by simpa using hc⟩
  · obtain ⟨run, hrun, hc⟩ := List.any_eq_true.mp hdepicted
    exact ⟨run, List.mem_append_right _ hrun, by simpa using hc⟩

/-- No blank is among the digits. -/
theorem isBlank_of_isDigit (h : isDigit c = true) : isBlank c = false := by
  have hgaps : ∀ run ∈ digitRuns, 0x20 < run.1 ∧ run.2 < 0x85 ∨ 0xA0 < run.1 ∧ run.2 < 0x1680 ∨
      0x1680 < run.1 ∧ run.2 < 0x2000 ∨ 0x205F < run.1 ∧ run.2 < 0x3000 ∨ 0x3000 < run.1 := by
    decide
  obtain ⟨run, hrun, hfirst, hlast⟩ := exists_run_of_isDigit h
  have hgap := hgaps run hrun
  simp only [isBlank, Bool.or_eq_false_iff, Bool.and_eq_false_iff, decide_eq_false_iff_not,
    beq_eq_false_iff_ne]
  omega

theorem ne_underscore_of_isDigit (h : isDigit c = true) : c ≠ '_' := by
  rintro rfl
  revert h
  decide

theorem isDigit_of_isSome (h : (digitValue? c).isSome = true) : isDigit c = true := by
  rw [isDigit, h, Bool.true_or]

/-- The only script among the basic characters is that of the basic digits. -/
theorem digitValue?_of_lt (h : (digitValue? c).isSome = true) (hc : c.toNat < 0x80) :
    0x30 ≤ c.toNat ∧ c.toNat ≤ 0x39 ∧ digitValue? c = some (c.toNat - 0x30) := by
  have hzeros : ∀ z ∈ scriptZeros, z = 0x30 ∨ 0x80 ≤ z := by
    decide
  rw [Option.isSome_iff_exists] at h
  obtain ⟨n, hn⟩ := h
  obtain ⟨z, hz, rfl⟩ := Option.map_eq_some_iff.mp hn
  have hin := List.find?_some hz
  rw [Bool.and_eq_true, decide_eq_true_eq, decide_eq_true_eq] at hin
  rcases hzeros z (List.mem_of_find?_eq_some hz) with rfl | hlarge
  · exact ⟨hin.1, hin.2, hn⟩
  · omega

/-- What depicts a digit without being one is no basic character. -/
theorem le_toNat_of_isDigit (h : isDigit c = true) (hnone : digitValue? c = none) :
    0x80 ≤ c.toNat := by
  have hruns : ∀ run ∈ depictedDigits, 0x80 ≤ run.1 := by
    decide
  rw [isDigit, hnone, Option.isSome_none, Bool.false_or] at h
  obtain ⟨run, hrun, hc⟩ := List.any_eq_true.mp h
  have hfirst : run.1 ≤ c.toNat := by simpa using (Bool.and_eq_true_iff.mp hc).1
  exact (hruns run hrun).trans hfirst

end Text

namespace Decimal

open Text (digitValue? digitChar isDigit)

variable {c : Char} {s : List Char}

/-- The basic digit that a digit of any script is read as; other characters stay. -/
def basicDigit (c : Char) : Char :=
  (digitValue? c).elim c digitChar

theorem isBasicDigit_digitChar (n : Nat) : isBasicDigit (digitChar n) = true := by
  have hall : ∀ k < 10, isBasicDigit (Char.ofNat (0x30 + k)) = true := by
    decide
  exact hall (n % 10) (Nat.mod_lt n (by decide))

theorem isBasicDigit_basicDigit (h : (digitValue? c).isSome = true) :
    isBasicDigit (basicDigit c) = true := by
  obtain ⟨n, hn⟩ := Option.isSome_iff_exists.mp h
  rw [basicDigit, hn]
  exact isBasicDigit_digitChar n

theorem basicDigit_of_none (h : digitValue? c = none) : basicDigit c = c := by
  rw [basicDigit, h]
  rfl

theorem basicDigit_eq_point_iff : basicDigit c = '.' ↔ c = '.' := by
  cases hvalue : digitValue? c with
  | none => rw [basicDigit_of_none hvalue]
  | some n =>
    have hdigit := isBasicDigit_basicDigit (Option.isSome_iff_exists.mpr ⟨n, hvalue⟩)
    refine iff_of_false ?_ ?_
    · intro hpoint
      rw [hpoint] at hdigit
      exact absurd hdigit (by decide)
    · rintro rfl
      have hnone : digitValue? '.' = none := by decide
      cases hnone.symm.trans hvalue

theorem basicDigit_of_lt (h : (digitValue? c).isSome = true) (hc : c.toNat < 0x80) :
    basicDigit c = c := by
  obtain ⟨hfirst, hlast, hvalue⟩ := Text.digitValue?_of_lt h hc
  have hsum : 0x30 + (c.toNat - 0x30) % 10 = c.toNat := by omega
  rw [basicDigit, hvalue, Option.elim_some, digitChar, hsum, Char.ofNat_toNat]

/-- A digit of any script is read as its basic digit. -/
theorem plainChar_eq_some (h : (digitValue? c).isSome = true) :
    plainChar c = some (basicDigit c) := by
  have hdigit := Text.isDigit_of_isSome h
  by_cases hc : c.toNat < 0x80
  · have hbounds := Text.digitValue?_of_lt h hc
    rw [basicDigit_of_lt h hc, plainChar, if_pos (by omega)]
  · obtain ⟨n, hn⟩ := Option.isSome_iff_exists.mp h
    rw [plainChar, if_neg (by omega), Text.isBlank_of_isDigit hdigit, if_neg Bool.false_ne_true,
      basicDigit, hn]
    rfl

/-- What depicts a digit without being one is not read. -/
theorem plainChar_eq_none (h : isDigit c = true) (hnone : digitValue? c = none) :
    plainChar c = none := by
  have hc := Text.le_toNat_of_isDigit h hnone
  rw [plainChar, if_neg (by omega), Text.isBlank_of_isDigit h, if_neg Bool.false_ne_true, hnone]
  rfl

/-! ## Texts of digits and points -/

theorem plainText_of_digits (hs : ∀ c ∈ s, isDigit c = true ∨ c = '.') :
    plainText s = s.mapM plainChar := by
  refine plainText_eq_mapM fun c hc => ?_
  rcases hs c hc with hdigit | rfl
  · exact ⟨Text.isBlank_of_isDigit hdigit, Text.ne_underscore_of_isDigit hdigit⟩
  · decide

/-- Digits of any script and points are read as basic digits and points. -/
theorem plainText_eq_some (hs : ∀ c ∈ s, (digitValue? c).isSome = true ∨ c = '.') :
    plainText s = some (s.map basicDigit) := by
  rw [plainText_of_digits fun c hc => (hs c hc).imp_left Text.isDigit_of_isSome]
  refine mapM_plainChar_eq_some fun c hc => ?_
  rcases hs c hc with hdigit | rfl
  · exact plainChar_eq_some hdigit
  · decide

/-- A text that holds what only depicts a digit is not read. -/
theorem plainText_eq_none (hs : ∀ c ∈ s, isDigit c = true ∨ c = '.') (hc : c ∈ s)
    (hdigit : isDigit c = true) (hnone : digitValue? c = none) : plainText s = none := by
  rw [plainText_of_digits hs]
  clear hs
  induction s with
  | nil => cases hc
  | cons first rest ih =>
    rw [List.mapM_cons]
    rcases List.mem_cons.mp hc with rfl | hrest
    · rw [plainChar_eq_none hdigit hnone]
      rfl
    · rw [ih hrest]
      cases plainChar first <;> rfl

/-- Only its basic characters matter to the reading of a text. -/
theorem parse_congr {t : List Char} (h : plainText s = plainText t) : parse s = parse t := by
  rw [parse, parse, h]

end Decimal

end Cambio
