import Cambio.Proofs.Decimal.Room
import Cambio.Proofs.Except
import Cambio.Proofs.Keypad.Reading
import Cambio.Proofs.Keypad.Step

/-!
# The length of displays

A key puts at most one character more on display, or a result in place of what was there. So after
some keys the display is not longer than the longest result and one character for each key, and no
power of ten comes up on it. There is room for the number that such a display denotes.

## Main definitions

- `Keypad.Fits` — the display has a text of some length without a power of ten

## Main statements

- `Keypad.Fits.press` — a key takes one character more
- `Keypad.Fits.hasPlaces` — there is room for the number on display
-/

namespace Cambio

open Decimal (IsShort LacksPower longestResult)

namespace Keypad

variable {k : Keypad} {o : Operator} {a b d : Decimal} {room : Nat}

/-! ## Results -/

theorem isShort_compute (ha : a.isFinite = true) (hb : b.isFinite = true)
    (h : o.compute a b = .ok d) : d.IsShort := by
  cases o with
  | plus => exact Decimal.isShort_add ha hb h
  | minus => exact Decimal.isShort_sub ha hb h
  | asterisk | times => exact Decimal.isShort_mul ha hb h
  | slash | obelus => exact Decimal.isShort_div ha hb h

theorem isShort_apply (ha : a.isFinite = true) (hb : b.isFinite = true)
    (h : apply o a b = .ok d) : d.IsShort := by
  unfold apply at h
  split_ifs at h
  split at h
  · next hcompute =>
    cases h
    exact isShort_compute ha hb hcompute
  · cases h

theorem isShort_percentage (h : k.percentage = .ok d) : d.IsShort := by
  unfold percentage at h
  split at h
  · cases h
  · next value hvalue =>
    have hfinite := isFinite_of_parseNumber hvalue
    dsimp only at h
    split at h
    · exact Decimal.isShort_div hfinite rfl (Except.mapError_eq_ok_iff.mp h)
    · split at h
      · cases h
      · next left hleft =>
        obtain ⟨q, hquotient, hproduct⟩ :=
          Except.bind_eq_ok_iff.mp (Except.mapError_eq_ok_iff.mp h)
        have hbounded := Decimal.isBounded_div hfinite (b := hundred) rfl rfl
        rw [hquotient] at hbounded
        cases hbounded with
        | finite hq => exact Decimal.isShort_mul (isFinite_of_parseNumber hleft) hq hproduct

/-- A finite decimal in positional notation has no power of ten. -/
theorem lacksPower_formatNumber (h : d.isFinite = true) : LacksPower (formatNumber d) := by
  obtain ⟨negative, c, e, rfl⟩ := Decimal.eq_finite_of_isFinite h
  obtain ⟨n, htext, -⟩ := Decimal.exists_numeral_fixed negative c e
  rw [formatNumber, ← htext]
  constructor <;>
  · intro hmem
    have hbounds := (n.isPlain_of_mem_text hmem).toNat_mem
    revert hbounds
    decide

theorem isFinite_of_isShort (h : d.IsShort) : d.isFinite = true := by
  cases d with
  | finite => rfl
  | infinite | nan => exact h.elim

/-! ## Displays -/

/-- The display has a text of at most some length, without a power of ten unless a failure is shown.
    What repeated equals applies is a number. -/
structure Fits (k : Keypad) (room : Nat) : Prop where
  length : k.display.length ≤ room
  lacksPower : k.hasError = false → LacksPower k.display
  operand : k.lastOperand.isFinite = true

theorem Fits.mono {more : Nat} (h : k.Fits room) (hle : room ≤ more) : k.Fits more :=
  ⟨h.length.trans hle, h.lacksPower, h.operand⟩

theorem fits_fresh (hroom : longestResult ≤ room) : fresh.Fits room := by
  have hresult : longestResult = 1000029 := rfl
  refine ⟨?_, fun _ => ⟨by decide, by decide⟩, rfl⟩
  change 1 ≤ room
  omega

theorem Fits.fail (h : k.Fits room) (hroom : longestResult ≤ room) (f : Failure) :
    (k.fail f).Fits room := by
  have hresult : longestResult = 1000029 := rfl
  refine ⟨?_, nofun, h.operand⟩
  change 5 ≤ room
  omega

/-- A result in place of the display. -/
theorem fits_result (hroom : longestResult ≤ room) (hdisplay : k.display = formatNumber d)
    (hshort : d.IsShort) (hoperand : k.lastOperand.isFinite = true) : k.Fits room := by
  refine ⟨?_, fun _ => ?_, hoperand⟩
  · rw [hdisplay]
    exact hshort.length_fixed_le.trans hroom
  · rw [hdisplay]
    exact lacksPower_formatNumber (isFinite_of_isShort hshort)

theorem Fits.recovered (h : k.Fits room) (hroom : longestResult ≤ room) :
    k.recovered.Fits room ∧ LacksPower k.recovered.display := by
  unfold Keypad.recovered
  split
  · exact ⟨fits_fresh hroom, by decide, by decide⟩
  · next herror => exact ⟨h, h.lacksPower (by simpa using herror)⟩

theorem Fits.enter (h : k.Fits room) {start continued : List Char}
    (hstart : start.length ≤ room + 1 ∧ LacksPower start)
    (hcontinued : continued.length ≤ room + 1 ∧ LacksPower continued) :
    (k.enter start continued).Fits (room + 1) := by
  unfold Keypad.enter
  split
  · exact ⟨hcontinued.1, fun _ => hcontinued.2, h.operand⟩
  · exact ⟨hstart.1, fun _ => hstart.2, h.operand⟩

theorem lacksPower_append {s : List Char} {c : Char} (h : LacksPower s) (he : c ≠ 'e')
    (hE : c ≠ 'E') : LacksPower (s ++ [c]) := by
  simp [LacksPower, h.1, h.2, he.symm, hE.symm]

/-! ## Keys -/

theorem Fits.digit (h : k.Fits room) (hroom : longestResult ≤ room) (text : List Char) :
    (k.digit text).Fits (room + 1) := by
  obtain ⟨hfits, hlacks⟩ := h.recovered hroom
  have hfail (f : Failure) : (k.recovered.fail f).Fits (room + 1) :=
    (hfits.fail hroom f).mono (Nat.le_succ _)
  unfold Keypad.digit
  dsimp only
  split
  · next c =>
    split
    · next hc =>
      have he : c ≠ 'e' := by
        rintro rfl
        exact absurd hc (by decide +kernel)
      have hE : c ≠ 'E' := by
        rintro rfl
        exact absurd hc (by decide +kernel)
      have hone : [c].length ≤ room + 1 ∧ LacksPower [c] := by
        refine ⟨?_, by simp [LacksPower, he.symm, hE.symm]⟩
        rw [List.length_singleton]
        omega
      refine hfits.enter hone ?_
      split
      · exact hone
      · refine ⟨?_, lacksPower_append hlacks he hE⟩
        rw [List.length_append, List.length_singleton]
        exact Nat.succ_le_succ hfits.length
    · exact hfail _
  · exact hfail _

theorem Fits.point (h : k.Fits room) (hroom : longestResult ≤ room) :
    k.point.Fits (room + 1) := by
  obtain ⟨hfits, hlacks⟩ := h.recovered hroom
  have hresult : longestResult = 1000029 := rfl
  refine hfits.enter ⟨?_, by decide, by decide⟩ ?_
  · change 2 ≤ room + 1
    omega
  · split
    · exact ⟨hfits.length.trans (Nat.le_succ _), hlacks⟩
    · refine ⟨?_, lacksPower_append hlacks (by decide) (by decide)⟩
      rw [List.length_append, List.length_singleton]
      exact Nat.succ_le_succ hfits.length

theorem Fits.repeatEquals (h : k.Fits room) (hroom : longestResult ≤ room) (o : Operator) :
    (k.repeatEquals o).Fits room := by
  cases repeating k o with
  | shown x d read applied eq =>
    rw [eq]
    exact fits_result hroom rfl (isShort_apply (isFinite_of_parseNumber read) h.operand applied)
      h.operand
  | unread f _ eq | undefined _ f _ _ eq =>
    rw [eq]
    exact h.fail hroom f

theorem Fits.complete (h : k.Fits room) (hroom : longestResult ≤ room) (p : Pending) :
    (k.complete p).Fits room := by
  cases completing k p with
  | shown left right d readLeft readRight applied eq =>
    have hright := isFinite_of_parseNumber readRight
    rw [eq]
    exact fits_result hroom rfl (isShort_apply (isFinite_of_parseNumber readLeft) hright applied)
      hright
  | unread f _ eq =>
    rw [eq]
    exact h.fail hroom f
  | undefined left right f _ readRight _ eq =>
    have hremembers : (k.remembering p.operator right).Fits room :=
      ⟨h.length, h.lacksPower, isFinite_of_parseNumber readRight⟩
    rw [eq]
    exact hremembers.fail hroom f

theorem Fits.takeDisplay (h : k.Fits room) (hroom : longestResult ≤ room) :
    k.takeDisplay.Fits room := by
  cases taking k with
  | taken d _ eq =>
    rw [eq]
    exact ⟨h.length, h.lacksPower, h.operand⟩
  | unread f _ eq =>
    rw [eq]
    exact h.fail hroom f

theorem Fits.equals (h : k.Fits room) (hroom : longestResult ≤ room) : k.equals.Fits room := by
  cases equalling k with
  | ignored _ eq =>
    rw [eq]
    exact h
  | repeated o _ _ _ eq => exact eq ▸ h.repeatEquals hroom o
  | taken _ _ eq => exact eq ▸ h.takeDisplay hroom
  | completed p _ _ eq => exact eq ▸ h.complete hroom p

theorem Fits.await (h : k.Fits room) (hroom : longestResult ≤ room) (symbol : List Char) :
    (k.await symbol).Fits room := by
  cases awaiting k symbol with
  | waits o left _ _ eq =>
    rw [eq]
    exact ⟨h.length, h.lacksPower, h.operand⟩
  | unknown f _ eq | unread f _ eq =>
    rw [eq]
    exact h.fail hroom f

theorem Fits.operator (h : k.Fits room) (hroom : longestResult ≤ room) (symbol : List Char) :
    (k.operator symbol).Fits room := by
  have hfits := (h.recovered hroom).1
  cases operating k symbol with
  | awaits _ eq => exact eq ▸ hfits.await hroom symbol
  | failed _ _ _ _ eq => exact eq ▸ hfits.equals hroom
  | completes _ _ _ _ eq => exact eq ▸ (hfits.equals hroom).await hroom symbol

theorem Fits.percent (h : k.Fits room) (hroom : longestResult ≤ room) : k.percent.Fits room := by
  unfold Keypad.percent
  split
  · exact fits_fresh hroom
  · split
    · next d hd => exact fits_result hroom rfl (isShort_percentage hd) h.operand
    · exact h.fail hroom _

theorem Fits.sign (h : k.Fits room) (hroom : longestResult ≤ room) : k.sign.Fits (room + 1) := by
  unfold Keypad.sign
  split
  · exact (fits_fresh hroom).mono (Nat.le_succ _)
  · next herror =>
    have hlacks := h.lacksPower (by simpa using herror)
    have hlength := h.length
    split
    · exact h.mono (Nat.le_succ _)
    · split
      · next rest hdisplay =>
        rw [hdisplay] at hlacks hlength
        rw [List.length_cons] at hlength
        exact ⟨by dsimp only; omega, fun _ => hlacks.of_subset (List.subset_cons_self _ _),
          h.operand⟩
      · refine ⟨Nat.succ_le_succ hlength, fun _ => ?_, h.operand⟩
        simp [LacksPower, hlacks.1, hlacks.2]

theorem Fits.backspace (h : k.Fits room) (hroom : longestResult ≤ room) :
    k.backspace.Fits room := by
  have hlength := h.length
  unfold Keypad.backspace
  split
  · exact fits_fresh hroom
  · next herror =>
    have hlacks := h.lacksPower (by simpa using herror)
    split
    · refine ⟨?_, fun _ => ?_, h.operand⟩
      · dsimp only
        split
        · rw [List.length_dropLast]
          omega
        · exact (fits_fresh hroom).length
      · dsimp only
        split
        · exact hlacks.of_subset (List.dropLast_subset _)
        · exact (fits_fresh hroom).lacksPower rfl
    · exact h

/-- A key takes at most one character more. -/
theorem Fits.press (h : k.Fits room) (hroom : longestResult ≤ room) (key : Key) :
    (k.press key).Fits (room + 1) := by
  have hmore : room ≤ room + 1 := Nat.le_succ _
  cases key with
  | digit text => exact h.digit hroom text
  | point => exact h.point hroom
  | operator symbol => exact (h.operator hroom symbol).mono hmore
  | equals => exact (h.equals hroom).mono hmore
  | clear => exact (fits_fresh hroom).mono hmore
  | clearEntry =>
    change (k.clearEntry).Fits _
    unfold clearEntry
    split
    · exact (fits_fresh hroom).mono hmore
    · have hblank := (fits_fresh hroom).mono hmore
      exact ⟨hblank.length, fun _ => hblank.lacksPower rfl, h.operand⟩
  | backspace => exact (h.backspace hroom).mono hmore
  | sign => exact h.sign hroom
  | percent => exact (h.percent hroom).mono hmore

/-- There is room for the number on display. -/
theorem Fits.hasPlaces (h : k.Fits room) (herror : k.hasError = false)
    (hd : parseNumber k.display = .ok d) {places : Nat}
    (hroom : (room : Int) + places ≤ Decimal.mostDigits) : d.hasPlaces places = true := by
  have hlength := h.length
  exact Decimal.hasPlaces_of_parse (parseNumber_eq_ok_iff.mp hd).1 (h.lacksPower herror)
    (by omega)

end Keypad

end Cambio
