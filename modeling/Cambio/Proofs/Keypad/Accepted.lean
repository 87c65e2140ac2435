import Cambio.Proofs.Decimal.Scripts
import Cambio.Proofs.Keypad.Display

/-!
# What number entry accepts

A digit key takes every character that depicts a digit, of any script and also where it is not used
in positional notation. What is typed so is a number if and only if all digits are positional ones:
then the display is read as the decimal of all of them, whatever their scripts. A superscript stays
on display instead and makes it unreadable.

## Main definitions

- `Keypad.Key.IsEntry`, `Keypad.Key.IsTaken` — the keys of number entry, and those it accepts
- `Keypad.typedChars` — what keys type
- `Keypad.NeverFails` — no key of a sequence fails
- `Keypad.EntryRules` — which keys are accepted, and which displays are read after them

## Main statements

- `Keypad.neverFails_iff` — the keys that are accepted
- `Keypad.parse_typed` — what is typed in digits of any script is read
- `Keypad.entryRules` — the rules hold of all keys of number entry
-/

namespace Cambio.Keypad

open Decimal (basicDigit isBasicDigit Numeral)
open Text (digitValue?)

/-! ## Keys of number entry -/

/-- A digit key, whatever text it comes with, or the point key. -/
def Key.IsEntry : Key → Prop
  | .digit _ | .point => True
  | _ => False

/-- A digit key of one character that depicts a digit, or the point key. -/
def Key.IsTaken : Key → Prop
  | .digit text => ∃ c, text = [c] ∧ Text.isDigit c = true
  | .point => True
  | _ => False

/-- The characters that a key of number entry comes with. -/
def Key.chars : Key → List Char
  | .digit text => text
  | .point => ['.']
  | _ => []

/-- The characters that keys of number entry come with. -/
def typedChars (keys : List Key) : List Char :=
  keys.flatMap Key.chars

/-- No key of a sequence that is pressed on a new calculator fails. -/
def NeverFails (keys : List Key) : Prop :=
  ∀ part, part <+: keys → (fresh.pressAll part).hasError = false

variable {k : Keypad} {key : Key} {keys : List Key} {s : List Char}

theorem hasError_press_iff (herror : k.hasError = false) (hkey : key.IsEntry) :
    (k.press key).hasError = false ↔ key.IsTaken := by
  have henter (start continued : List Char) : (k.enter start continued).hasError = false := by
    unfold enter
    split <;> exact herror
  cases key with
  | point =>
    refine iff_of_true ?_ trivial
    rw [press, point, recovered_of_not_hasError herror]
    exact henter _ _
  | digit text =>
    show (k.digit text).hasError = false ↔ _
    unfold digit
    rw [recovered_of_not_hasError herror]
    dsimp only
    split
    · next c =>
      split
      · next hdigit => exact iff_of_true (henter _ _) ⟨c, rfl, hdigit⟩
      · next hdigit =>
        refine iff_of_false (by rw [hasError_fail]; decide) ?_
        rintro ⟨d, hd, htaken⟩
        cases hd
        exact hdigit htaken
    · next hlong =>
      refine iff_of_false (by rw [hasError_fail]; decide) ?_
      rintro ⟨d, rfl, -⟩
      exact hlong d rfl
  | operator | equals | clear | clearEntry | backspace | sign | percent => cases hkey

theorem neverFails_concat :
    NeverFails (keys ++ [key]) ↔
      NeverFails keys ∧ (fresh.pressAll (keys ++ [key])).hasError = false := by
  constructor
  · intro h
    exact ⟨fun part hpart => h part (hpart.trans (List.prefix_append _ _)),
      h _ (List.prefix_refl _)⟩
  · rintro ⟨hbefore, hlast⟩ part hpart
    rcases List.prefix_concat_iff.mp hpart with rfl | hpart
    · exact hlast
    · exact hbefore part hpart

/-- Keys of number entry are accepted if each is by itself. -/
theorem neverFails_iff (hkeys : ∀ key ∈ keys, key.IsEntry) :
    NeverFails keys ↔ ∀ key ∈ keys, key.IsTaken := by
  induction keys using List.reverseRecOn with
  | nil =>
    refine iff_of_true (fun part hpart => ?_) nofun
    rw [List.prefix_nil.mp hpart]
    rfl
  | append_singleton keys key ih =>
    have hbefore := ih fun key hmem => hkeys key (List.mem_append_left _ hmem)
    rw [neverFails_concat, hbefore, List.forall_mem_append, List.forall_mem_singleton]
    refine and_congr_right fun htaken => ?_
    have herror := hbefore.mpr htaken keys (List.prefix_refl _)
    rw [pressAll_append]
    exact hasError_press_iff herror (hkeys key (by simp))

theorem neverFails_iff_digits (hkeys : ∀ key ∈ keys, key.IsEntry) :
    NeverFails keys ↔
      ∀ text, Key.digit text ∈ keys → ∃ c, text = [c] ∧ Text.isDigit c = true := by
  rw [neverFails_iff hkeys]
  constructor
  · intro h text htext
    exact h _ htext
  · intro h key hkey
    cases key with
    | digit text => exact h text hkey
    | point => trivial
    | operator | equals | clear | clearEntry | backspace | sign | percent => exact hkeys _ hkey

/-- Accepted keys are those of the characters that they come with. -/
theorem map_entryKey_typedChars (h : ∀ key ∈ keys, key.IsTaken) :
    (typedChars keys).map entryKey = keys ∧
      ∀ c ∈ typedChars keys, Text.isDigit c = true ∨ c = '.' := by
  induction keys with
  | nil => exact ⟨rfl, nofun⟩
  | cons key keys ih =>
    obtain ⟨hkey, hkeys⟩ := List.forall_mem_cons.mp h
    obtain ⟨hmap, hchars⟩ := ih hkeys
    have hone : ∃ c, key = entryKey c ∧ key.chars = [c] ∧ (Text.isDigit c = true ∨ c = '.') := by
      cases key with
      | digit text =>
        obtain ⟨c, rfl, hc⟩ := hkey
        exact ⟨c, (if_neg (ne_point_of_isDigit hc)).symm, rfl, .inl hc⟩
      | point => exact ⟨'.', rfl, rfl, .inr rfl⟩
      | operator | equals | clear | clearEntry | backspace | sign | percent => cases hkey
    obtain ⟨c, hkey, hchar, hc⟩ := hone
    have htyped : typedChars (key :: keys) = c :: typedChars keys := by
      rw [typedChars, List.flatMap_cons, hchar]
      rfl
    rw [htyped, List.map_cons, hmap, ← hkey]
    exact ⟨rfl, List.forall_mem_cons.mpr ⟨hc, hchars⟩⟩

theorem display_pressAll_entry (h : ∀ key ∈ keys, key.IsTaken) :
    (fresh.pressAll keys).display = (typedChars keys).foldl typedOn blankDisplay := by
  obtain ⟨hmap, hchars⟩ := map_entryKey_typedChars h
  by_cases hnil : typedChars keys = []
  · rw [hnil] at hmap ⊢
    rw [← hmap]
    rfl
  · conv_lhs => rw [← hmap]
    rw [pressAll_map_entryKey rfl hchars hnil]
    rfl

/-! ## Displays -/

/-- Nothing comes on display but what is typed, and a nought. -/
theorem forall_mem_typed {p : Char → Prop} (hzero : p '0') (hs : ∀ c ∈ s, p c) :
    ∀ c ∈ s.foldl typedOn blankDisplay, p c := by
  induction s using List.reverseRecOn with
  | nil => exact List.forall_mem_singleton.mpr hzero
  | append_singleton s x ih =>
    rw [List.forall_mem_append, List.forall_mem_singleton] at hs
    have hbefore := ih hs.1
    rw [List.foldl_append, List.foldl_cons, List.foldl_nil]
    generalize s.foldl typedOn blankDisplay = shown at hbefore ⊢
    have happend : ∀ c ∈ shown ++ [x], p c :=
      List.forall_mem_append.mpr ⟨hbefore, List.forall_mem_singleton.mpr hs.2⟩
    unfold typedOn
    split_ifs with hpoint
    · exact hbefore
    · exact hpoint ▸ happend
    · exact List.forall_mem_singleton.mpr hs.2
    · exact happend

/-- Every digit but a nought stays on display. -/
theorem mem_typed_of_mem {c : Char} (hc : c ∈ s) (hpoint : c ≠ '.') (hzero : c ≠ '0') :
    c ∈ s.foldl typedOn blankDisplay := by
  induction s using List.reverseRecOn with
  | nil => cases hc
  | append_singleton s x ih =>
    rw [List.foldl_append, List.foldl_cons, List.foldl_nil]
    rcases List.mem_append.mp hc with hbefore | hlast
    · have hshown := ih hbefore
      generalize s.foldl typedOn blankDisplay = shown at hshown ⊢
      unfold typedOn
      split_ifs with hx hmem hblank
      · exact hshown
      · exact List.mem_append_left _ hshown
      · rw [hblank] at hshown
        exact absurd (List.mem_singleton.mp hshown) hzero
      · exact List.mem_append_left _ hshown
    · obtain rfl := List.mem_singleton.mp hlast
      unfold typedOn
      rw [if_neg hpoint]
      split_ifs <;> simp

/-- A digit of any script that is used in positional notation, or a point. -/
def IsPositional (c : Char) : Prop :=
  (digitValue? c).isSome = true ∨ c = '.'

instance : DecidablePred IsPositional := fun _ => instDecidableOr

/-- The decimal of the digits that are typed, whatever their scripts. -/
def decimalOf (s : List Char) : Decimal :=
  typedDecimal (s.map basicDigit)

/-- What is typed in digits of any script shows the number of their basic digits. -/
theorem isTyped_map_basicDigit (hs : ∀ c ∈ s, IsPositional c) :
    IsTyped (s.map basicDigit) ((s.foldl typedOn blankDisplay).map basicDigit) := by
  have hblank : IsTyped [] (blankDisplay.map basicDigit) := by
    have hstays : blankDisplay.map basicDigit = blankDisplay := by decide
    rw [hstays]
    exact isTyped_blankDisplay
  exact hblank.foldl_typedOn (by decide) (fun _ => Decimal.basicDigit_eq_point_iff)
    fun c hc => (hs c hc).imp_left Decimal.isBasicDigit_basicDigit

/-- What is typed in digits of any script is read as their decimal. -/
theorem parse_typed (hs : ∀ c ∈ s, IsPositional c) :
    Decimal.parse (s.foldl typedOn blankDisplay) =
      if (decimalOf s).IsHeld then .ok (decimalOf s) else .error .invalidOperation := by
  have hshown := forall_mem_typed (.inl (by decide) : IsPositional '0') hs
  have hplain : Decimal.plainText ((s.foldl typedOn blankDisplay).map basicDigit) =
      some ((s.foldl typedOn blankDisplay).map basicDigit) := by
    obtain ⟨n, htext, -⟩ := isTyped_map_basicDigit hs
    rw [← htext]
    exact Decimal.plainText_of_forall fun c => n.isPlain_of_mem_text
  rw [Decimal.parse_congr ((Decimal.plainText_eq_some hshown).trans hplain.symm), decimalOf]
  exact parse_of_isTyped (isTyped_map_basicDigit hs)

/-- What is typed with a digit that is not positional is not read. -/
theorem parse_typed_of_depicted (hs : ∀ c ∈ s, Text.isDigit c = true ∨ c = '.')
    (hdepicted : ¬ ∀ c ∈ s, IsPositional c) :
    Decimal.parse (s.foldl typedOn blankDisplay) = .error .conversionSyntax := by
  obtain ⟨c, hmem, hc⟩ : ∃ c ∈ s, ¬ IsPositional c := by simpa using hdepicted
  obtain ⟨hnone, hpoint⟩ : digitValue? c = none ∧ c ≠ '.' := by simpa [IsPositional] using hc
  have hzero : c ≠ '0' := by
    rintro rfl
    exact absurd hnone (by decide)
  have hdigit := (hs c hmem).resolve_right hpoint
  have hshown := forall_mem_typed (.inl (by decide) : Text.isDigit '0' = true ∨ '0' = '.') hs
  have hnone := Decimal.plainText_eq_none hshown (mem_typed_of_mem hmem hpoint hzero) hdigit hnone
  rw [Decimal.parse, hnone]

theorem isHeld_of_typed (hs : ∀ c ∈ s, IsPositional c)
    (hlength : (s.foldl typedOn blankDisplay).length ≤ Numeral.longest) :
    (decimalOf s).IsHeld := by
  obtain ⟨n, htext, hn⟩ := isTyped_map_basicDigit hs
  have hdigits : n.digits ≠ [] := List.append_ne_nil_of_left_ne_nil hn.whole _
  have hcount : n.digits.length ≤ Numeral.longest := by
    refine n.digits_sublist_text.length_le.trans ?_
    rwa [htext, List.length_map]
  have hheld := n.isHeld_of_length_le hdigits hcount
  rwa [hn.negative, hn.value, hn.places, Decimal.digitsValue_eq] at hheld

/-! ## The rules -/

/-- Which keys are accepted, and which displays are read after them. -/
structure EntryRules (keys : List Key) : Prop where
  /-- A digit key is accepted with one character that depicts a digit. -/
  accepted : NeverFails keys ↔
    ∀ text, Key.digit text ∈ keys → ∃ c, text = [c] ∧ Text.isDigit c = true
  /-- The display is read if all digits are positional, as the decimal of all of them. -/
  read : NeverFails keys → ∀ d, parseNumber (fresh.pressAll keys).display = .ok d ↔
    (∀ c ∈ typedChars keys, IsPositional c) ∧ (decimalOf (typedChars keys)).IsHeld ∧
      d = decimalOf (typedChars keys)
  /-- That decimal is in range if the display is not too long. -/
  held : NeverFails keys → (∀ c ∈ typedChars keys, IsPositional c) →
    (fresh.pressAll keys).display.length ≤ Numeral.longest → (decimalOf (typedChars keys)).IsHeld

/-- **What is typed is read if its digits are positional ones**: after keys of number entry of which
    none fails, a display of at most the longest length is a number if and only if every digit that
    was typed is a digit of some script, and not a character that only depicts one. -/
theorem entryRules (keys : List Key) (hkeys : ∀ key ∈ keys, key.IsEntry) : EntryRules keys := by
  refine ⟨neverFails_iff_digits hkeys, fun hnever d => ?_, fun hnever hpositional hlength => ?_⟩
  · have htaken := (neverFails_iff hkeys).mp hnever
    have hchars := (map_entryKey_typedChars htaken).2
    rw [display_pressAll_entry htaken, parseNumber_eq_ok_iff]
    by_cases hpositional : ∀ c ∈ typedChars keys, IsPositional c
    · rw [parse_typed hpositional]
      by_cases hheld : (decimalOf (typedChars keys)).IsHeld
      · rw [if_pos hheld, Except.ok.injEq]
        constructor
        · rintro ⟨rfl, -⟩
          exact ⟨hpositional, hheld, rfl⟩
        · rintro ⟨-, -, rfl⟩
          exact ⟨rfl, Decimal.isFinite_of_isHeld hheld⟩
      · rw [if_neg hheld]
        exact iff_of_false nofun fun h => hheld h.2.1
    · rw [parse_typed_of_depicted hchars hpositional]
      exact iff_of_false nofun fun h => hpositional h.1
  · have htaken := (neverFails_iff hkeys).mp hnever
    rw [display_pressAll_entry htaken] at hlength
    exact isHeld_of_typed hpositional hlength

/-- A superscript two is accepted and shown, but the display is no number, so equals fails. -/
theorem not_reads_superscript :
    NeverFails [.digit ['²']] ∧ (∀ d, parseNumber (fresh.pressAll [.digit ['²']]).display ≠ .ok d) ∧
      (fresh.pressAll [.digit ['²'], .equals]).hasError = true := by
  have hkeys : ∀ key ∈ [Key.digit ['²']], key.IsEntry := List.forall_mem_singleton.mpr trivial
  have hnever : NeverFails [.digit ['²']] :=
    (neverFails_iff hkeys).mpr (List.forall_mem_singleton.mpr ⟨'²', rfl, by decide⟩)
  have hparse : Decimal.parse (fresh.pressAll [.digit ['²']]).display =
      .error .conversionSyntax := by
    decide +kernel
  refine ⟨hnever, fun d hd => ?_, by decide +kernel⟩
  cases hparse.symm.trans (parseNumber_eq_ok_iff.mp hd).1

/-- Digits of two scripts with a point between them are read as the decimal of their values. -/
theorem entryRules_twoScripts :
    (∀ key ∈ [Key.digit ['٣'], .point, .digit ['5']], key.IsEntry) ∧
      NeverFails [.digit ['٣'], .point, .digit ['5']] ∧
      parseNumber (fresh.pressAll [.digit ['٣'], .point, .digit ['5']]).display =
        .ok (.finite false 35 (-1)) := by
  have hkeys : ∀ key ∈ [Key.digit ['٣'], .point, .digit ['5']], key.IsEntry := by
    simp [Key.IsEntry]
  have hrules := entryRules _ hkeys
  have hnever : NeverFails [.digit ['٣'], .point, .digit ['5']] := by
    refine hrules.accepted.mpr fun text htext => ?_
    rcases List.mem_cons.mp htext with hfirst | hrest
    · cases hfirst
      exact ⟨'٣', rfl, by decide⟩
    · obtain rfl : text = ['5'] := by simpa using hrest
      exact ⟨'5', rfl, by decide⟩
  have hpositional : ∀ c ∈ ['٣', '.', '5'], IsPositional c :=
    List.forall_iff_forall_mem.mp (by decide)
  exact ⟨hkeys, hnever, (hrules.read hnever _).mpr ⟨hpositional, by decide, by decide⟩⟩

end Cambio.Keypad
