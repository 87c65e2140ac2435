import Cambio.Proofs.Keypad.Typing
import Mathlib.Data.List.TakeWhile

/-!
# The text of a typed number

A number that is typed anew is shown as it was typed, but for leading zeros and for the points after
the first one. It is typed anew after clear, after an operator and after a result.

## Main definitions

- `Keypad.numberText` — a number as it is shown
- `Keypad.StartsNumber` — the next digit or point starts a number

## Main statements

- `Keypad.typedOn_numberText` — one character more
- `Keypad.pressAll_number` — the display after a whole number
-/

namespace Cambio.Keypad

open Decimal (isBasicDigit)

/-! ## The text of a number -/

/-- Digits without leading zeros; a nought if none are left. -/
def withoutZeros (ds : List Char) : List Char :=
  if ds.dropWhile (· = '0') = [] then blankDisplay else ds.dropWhile (· = '0')

/-- A number as it is shown: the digits before the first point without leading zeros and, if there
    is a point, one point and all digits after it. -/
def numberText (s : List Char) : List Char :=
  withoutZeros (s.takeWhile (· ≠ '.')) ++
    if '.' ∈ s then '.' :: (fromPoint s).filter (· ≠ '.') else []

variable {s ds : List Char} {c : Char}

theorem takeWhile_append_of_point_mem (h : '.' ∈ s) (t : List Char) :
    (s ++ t).takeWhile (· ≠ '.') = s.takeWhile (· ≠ '.') := by
  induction s with
  | nil => cases h
  | cons c s ih =>
    by_cases hc : c = '.'
    · simp [hc]
    · have hs : '.' ∈ s := by simpa [Ne.symm hc] using h
      simpa [hc] using ih hs

theorem takeWhile_append_of_point_notMem (h : '.' ∉ s) (t : List Char) :
    (s ++ t).takeWhile (· ≠ '.') = s ++ t.takeWhile (· ≠ '.') := by
  apply List.takeWhile_append_of_pos
  intro c hc
  have hne : c ≠ '.' := fun heq => h (heq ▸ hc)
  simpa using hne

theorem takeWhile_of_point_notMem (h : '.' ∉ s) : s.takeWhile (· ≠ '.') = s := by
  have happend := takeWhile_append_of_point_notMem h []
  rwa [List.append_nil, List.takeWhile_nil, List.append_nil] at happend

theorem point_notMem_withoutZeros (h : '.' ∉ ds) : '.' ∉ withoutZeros ds := by
  unfold withoutZeros
  split
  · decide
  · exact fun hmem => h ((List.dropWhile_sublist _).subset hmem)

theorem point_mem_numberText : '.' ∈ numberText s ↔ '.' ∈ s := by
  have hwhole : '.' ∉ withoutZeros (s.takeWhile (· ≠ '.')) :=
    point_notMem_withoutZeros fun hmem => by simpa using List.mem_takeWhile_imp hmem
  rw [numberText, List.mem_append, or_iff_right hwhole]
  by_cases hs : '.' ∈ s <;> simp [hs]

/-- A digit after others: it takes the place of a nought alone. -/
theorem withoutZeros_concat (ds : List Char) (c : Char) :
    withoutZeros (ds ++ [c]) =
      if withoutZeros ds = blankDisplay then [c] else withoutZeros ds ++ [c] := by
  have happend : (ds ++ [c]).dropWhile (· = '0') =
      if ds.dropWhile (· = '0') = [] then [c].dropWhile (· = '0')
      else ds.dropWhile (· = '0') ++ [c] := by
    rw [List.dropWhile_append]
    simp only [List.isEmpty_iff]
  by_cases hnil : ds.dropWhile (· = '0') = []
  · have hblank : withoutZeros ds = blankDisplay := if_pos hnil
    rw [if_pos hblank, withoutZeros, happend, if_pos hnil]
    by_cases hc : c = '0'
    · subst hc
      rfl
    · simp [hc]
  · -- what is left of the digits does not start with a nought
    have hleft : withoutZeros ds = ds.dropWhile (· = '0') := if_neg hnil
    have hblank : withoutZeros ds ≠ blankDisplay := by
      rw [hleft]
      intro heq
      have hhead := List.head?_dropWhile_not (· = '0') ds
      rw [heq] at hhead
      cases hhead
    rw [if_neg hblank, withoutZeros, happend, if_neg hnil, if_neg (by simp), hleft]

/-- The text of a number with one more character is the display one key later. -/
theorem typedOn_numberText (s : List Char) (c : Char) :
    typedOn (numberText s) c = numberText (s ++ [c]) := by
  have hpoint := point_mem_numberText (s := s)
  unfold typedOn
  by_cases hs : '.' ∈ s
  · -- The point is there: a digit goes after it, and another point is ignored.
    have hblank : numberText s ≠ blankDisplay := by
      intro heq
      rw [heq] at hpoint
      exact absurd (hpoint.mpr hs) (by decide)
    have htext : numberText (s ++ [c]) = numberText s ++ [c].filter (· ≠ '.') := by
      simp only [numberText, takeWhile_append_of_point_mem hs, fromPoint_append_of_mem hs,
        List.mem_append, hs, true_or, if_true, List.filter_append, List.append_assoc,
        List.cons_append]
    rw [if_pos (hpoint.mpr hs), if_neg hblank, htext]
    by_cases hc : c = '.'
    · simp [hc]
    · simp [hc]
  · have htext : numberText s = withoutZeros s := by
      rw [numberText, takeWhile_of_point_notMem hs, if_neg hs, List.append_nil]
    rw [if_neg (mt hpoint.mp hs), htext, numberText, takeWhile_append_of_point_notMem hs,
      fromPoint_append_of_notMem hs]
    by_cases hc : c = '.'
    · subst hc
      simp [fromPoint]
    · simp [hc, Ne.symm hc, hs, withoutZeros_concat]

theorem foldl_typedOn_blankDisplay (s : List Char) :
    s.foldl typedOn blankDisplay = numberText s := by
  induction s using List.reverseRecOn with
  | nil => rfl
  | append_singleton s c ih => rw [List.foldl_append, ih, ← typedOn_numberText]; rfl

/-! ## Typing a number anew -/

/-- The next digit or point starts a number: the calculator was just cleared, or an operator or a
    result was just shown. -/
inductive StartsNumber : Keypad → Prop
  | cleared (k : Keypad) : StartsNumber (k.press .clear)
  | operatorPending {k : Keypad} (status : k.status = .operatorPending) : StartsNumber k
  | equalsPending {k : Keypad} (status : k.status = .equalsPending) : StartsNumber k

theorem hasError_eq_false_of_status {k : Keypad} (h : k.status ≠ .error) : k.hasError = false := by
  by_contra herror
  exact h (if_pos (by simpa using herror))

theorem StartsNumber.hasError {k : Keypad} (h : StartsNumber k) : k.hasError = false := by
  cases h with
  | cleared => rfl
  | operatorPending hstatus | equalsPending hstatus =>
    exact hasError_eq_false_of_status (by rw [hstatus]; decide)

theorem StartsNumber.entryStart {k : Keypad} (h : StartsNumber k) :
    k.entryStart = blankDisplay := by
  have herror := h.hasError
  cases h with
  | cleared => rfl
  | operatorPending hstatus | equalsPending hstatus =>
    unfold status at hstatus
    rw [herror, if_neg Bool.false_ne_true] at hstatus
    unfold Keypad.entryStart
    split at hstatus
    all_goals simp_all

/-- **A number is shown as it is typed**, but for leading zeros and all points after the first one.
    No key of it fails, and nothing but the display changes. -/
theorem pressAll_number {k : Keypad} (hk : StartsNumber k) {s : List Char} (hnil : s ≠ [])
    (hs : ∀ c ∈ s, isBasicDigit c = true ∨ c = '.') :
    (k.pressAll (s.map entryKey)).display = numberText s ∧
      (∀ part, part <+: s → (k.pressAll (part.map entryKey)).hasError = false) ∧
      k.pressAll (s.map entryKey) = { k with display := numberText s, phase := .editing } := by
  have hdigits : ∀ c ∈ s, Text.isDigit c = true ∨ c = '.' :=
    fun c hc => (hs c hc).imp_left isDigit_of_isBasicDigit
  have htyped := pressAll_map_entryKey hk.hasError hdigits hnil
  rw [hk.entryStart, foldl_typedOn_blankDisplay] at htyped
  refine ⟨by rw [htyped], fun part hpart => ?_, htyped⟩
  by_cases hempty : part = []
  · subst hempty
    exact hk.hasError
  · rw [pressAll_map_entryKey hk.hasError (fun c hc => hdigits c (hpart.subset hc)) hempty]
    exact hk.hasError

/-- Five, plus, and then a number with leading zeros and two points. -/
theorem pressAll_number_afterPlus :
    let k := fresh.pressAll [.digit ['5'], .operator ['+']]
    StartsNumber k ∧ (k.pressAll ("007.5.0".toList.map entryKey)).display = "7.50".toList ∧
      (k.pressAll ("007.5.0".toList.map entryKey)).hasError = false := by
  have hstatus : (fresh.pressAll [.digit ['5'], .operator ['+']]).status = .operatorPending := by
    decide +kernel
  have hchars : ∀ c ∈ "007.5.0".toList, isBasicDigit c = true ∨ c = '.' :=
    List.forall_iff_forall_mem.mp (by decide)
  obtain ⟨hdisplay, herror, -⟩ := pressAll_number (.operatorPending hstatus) (by decide) hchars
  exact ⟨.operatorPending hstatus, hdisplay.trans (by decide), herror _ (List.prefix_refl _)⟩

end Cambio.Keypad
