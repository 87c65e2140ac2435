import Cambio.Proofs.Keypad.Typing

/-!
# What a calculator does after a failure

A failure replaces the display and leaves the rest of the state as it was: an operation may still be
pending, a result or an operator may just have been set, and repeated equals remembers its operands.
None of this is seen again. Equals stays in the error state, and every other key does what it does
on a calculator that was just switched on, be it a key that only forgets the failure or one that
goes on from there.

## Main definitions

- `Keypad.StartsAfresh` — the keys that are pressed next do not depend on what is left over

## Main statements

- `Keypad.press_of_hasError` — one key in the error state
- `Keypad.pressAll_of_hasError` — a sequence of keys in the error state
- `Keypad.startsAfresh` — any two histories that failed go on alike
-/

namespace Cambio.Keypad

variable {k : Keypad} {key : Key} {keys : List Key}

/-! ## One key -/

/-- Equals takes the nought that a new calculator shows as the result, which it was before. -/
theorem press_equals_fresh : fresh.press .equals = fresh := by
  decide +kernel

theorem press_equals_of_hasError (h : k.hasError = true) : k.press .equals = k :=
  if_pos h

theorem press_of_hasError (h : k.hasError = true) (hkey : key ≠ .equals) :
    k.press key = fresh.press key := by
  have hrecovered : k.recovered = fresh.recovered := recovered_of_hasError h
  cases key with
  | equals => exact absurd rfl hkey
  -- These keys go on from what is recovered.
  | digit text =>
    show k.digit text = fresh.digit text
    unfold digit
    rw [hrecovered]
  | point =>
    show k.point = fresh.point
    unfold point
    rw [hrecovered]
  | operator symbol =>
    show k.operator symbol = fresh.operator symbol
    unfold operator
    rw [hrecovered]
  -- These only forget the failure, and leave a new calculator as it is.
  | clear => rfl
  | clearEntry =>
    have hfresh : fresh.clearEntry = fresh := by decide
    exact (if_pos h).trans hfresh.symm
  | backspace =>
    have hfresh : fresh.backspace = fresh := by decide
    exact (if_pos h).trans hfresh.symm
  | sign =>
    have hfresh : fresh.sign = fresh := by decide
    exact (if_pos h).trans hfresh.symm
  | percent =>
    have hfresh : fresh.percent = fresh := by decide +kernel
    exact (if_pos h).trans hfresh.symm

/-! ## A sequence of keys -/

/-- Keys do in the error state what they do on a new calculator, unless all of them are equals. -/
theorem pressAll_of_hasError (h : k.hasError = true) (hkeys : ∃ key ∈ keys, key ≠ .equals) :
    k.pressAll keys = fresh.pressAll keys := by
  induction keys with
  | nil =>
    obtain ⟨key, hmem, -⟩ := hkeys
    cases hmem
  | cons key keys ih =>
    rw [pressAll_cons, pressAll_cons]
    by_cases hkey : key = .equals
    · -- Equals is lost on both: one stays in the error state, the other as it was switched on.
      subst hkey
      have hlater : ∃ key ∈ keys, key ≠ .equals := by simpa using hkeys
      rw [press_equals_of_hasError h, press_equals_fresh, ih hlater]
    · rw [press_of_hasError h hkey]

/-- What comes next does not depend on what a calculator has left over. -/
structure StartsAfresh (k : Keypad) : Prop where
  /-- Every other key does what it does on a new calculator. -/
  press : ∀ key, key ≠ .equals → k.press key = fresh.press key
  /-- Equals changes nothing. -/
  equals : k.press .equals = k
  /-- So do sequences of keys, also where equals is pressed first. -/
  pressAll : ∀ keys, (∃ key ∈ keys, key ≠ .equals) → k.pressAll keys = fresh.pressAll keys

theorem startsAfresh_of_hasError (h : k.hasError = true) : StartsAfresh k where
  press _ := press_of_hasError h
  equals := press_equals_of_hasError h
  pressAll _ := pressAll_of_hasError h

/-- **Failures are forgotten**: after any keys that end in the error state, each key but equals has
    the effect that it has on a new calculator, on the whole of the state, and equals has none; so
    two histories that end in the error state cannot be told apart by keys that do not begin with
    equals. -/
theorem startsAfresh (keys others : List Key) (hkeys : (fresh.pressAll keys).hasError = true)
    (hothers : (fresh.pressAll others).hasError = true) :
    StartsAfresh (fresh.pressAll keys) ∧
      ∀ key rest, key ≠ .equals →
        fresh.pressAll (keys ++ key :: rest) = fresh.pressAll (others ++ key :: rest) := by
  refine ⟨startsAfresh_of_hasError hkeys, fun key rest hkey => ?_⟩
  have hmore : ∃ later ∈ key :: rest, later ≠ Key.equals := ⟨key, List.mem_cons_self, hkey⟩
  rw [pressAll_append, pressAll_append, pressAll_of_hasError hkeys hmore,
    pressAll_of_hasError hothers hmore]

/-- Seven divided by nought leaves the division pending and its operands remembered, an unknown
    operator does not; after the two, a percent sign and an addition are alike. -/
theorem startsAfresh_divided :
    let divided := [Key.digit ['7'], .operator ['/'], .digit ['0'], .equals]
    let unknown := [Key.operator ['#']]
    let sum := [Key.digit ['2'], .operator ['+'], .equals]
    (fresh.pressAll divided).pending ≠ (fresh.pressAll unknown).pending ∧
      (fresh.pressAll divided).lastOperator ≠ (fresh.pressAll unknown).lastOperator ∧
      fresh.pressAll (divided ++ .percent :: sum) = fresh.pressAll (unknown ++ .percent :: sum) ∧
      (fresh.pressAll (divided ++ .percent :: sum)).display = ['4'] := by
  intro divided unknown sum
  have halike := (startsAfresh divided unknown (by decide +kernel) (by decide +kernel)).2
    .percent sum (by decide)
  exact ⟨by decide +kernel, by decide +kernel, halike, by decide +kernel⟩

end Cambio.Keypad
