import Cambio.Keypad.Basic
import Cambio.Proofs.Decimal.Exact

/-!
# Values on display

A display is read as a value, an operator key takes two values to the nearest one at the working
precision, and a result on display is read back as the value it has. So a calculation can be told in
values, without the texts and the forms of decimals that carry them.

## Main definitions

- `Keypad.valueOf?` — the value that a text shows
- `Keypad.Operator.step?` — what an operator key computes, in values
- `Keypad.Computes` — a reading or a calculation gives a value, or fails if there is none

## Main statements

- `Keypad.computes_parseNumber`, `Keypad.computes_apply` — displays and operator keys
- `Keypad.parseNumber_formatNumber` — numbers on display are read back
- `Keypad.isHeld_of_apply`, `Keypad.isHeld_of_percentage` — results can be put on display
-/

namespace Cambio

namespace Decimal

theorem isZero_iff {d : Decimal} (h : d.isFinite = true) : d.isZero = true ↔ d.value = 0 := by
  obtain ⟨negative, c, e, rfl⟩ := eq_finite_of_isFinite h
  rw [← abs_eq_zero, abs_value_finite, magnitude_eq_zero_iff]
  exact beq_iff_eq

end Decimal

namespace Keypad

variable {shown : List Char} {d : Decimal} {o : Operator} {a b : Decimal}

/-! ## Displays -/

theorem parseNumber_eq_ok_iff :
    parseNumber shown = .ok d ↔ Decimal.parse shown = .ok d ∧ d.isFinite = true := by
  unfold parseNumber
  cases Decimal.parse shown with
  | error signal => simp
  | ok a =>
    dsimp only
    split
    · next hfinite =>
      rw [Except.ok.injEq, Except.ok.injEq]
      exact ⟨fun h => ⟨h, h ▸ hfinite⟩, fun h => h.1⟩
    · next hfinite =>
      refine iff_of_false (by simp) ?_
      rintro ⟨h, hd⟩
      cases h
      exact hfinite hd

theorem isHeld_of_parseNumber (h : parseNumber shown = .ok d) : d.IsHeld := by
  obtain ⟨hparse, hfinite⟩ := parseNumber_eq_ok_iff.mp h
  exact Decimal.isHeld_of_parse hparse hfinite

theorem isFinite_of_parseNumber (h : parseNumber shown = .ok d) : d.isFinite = true :=
  (parseNumber_eq_ok_iff.mp h).2

theorem parseNumber_formatNumber (h : d.IsHeld) :
    parseNumber (formatNumber d) = .ok d.expanded :=
  parseNumber_eq_ok_iff.mpr ⟨Decimal.parse_fixed h, Decimal.isFinite_of_isHeld h.expanded⟩

/-- The value that a text shows, if it shows a finite number. -/
def valueOf? (shown : List Char) : Option ℚ :=
  (parseNumber shown).toOption.map Decimal.value

theorem valueOf?_eq_some_iff {v : ℚ} :
    valueOf? shown = some v ↔ ∃ d, parseNumber shown = .ok d ∧ d.value = v := by
  unfold valueOf?
  cases parseNumber shown with
  | error f => simp [Except.toOption]
  | ok d => simp [Except.toOption]

theorem valueOf?_formatNumber (h : d.IsHeld) : valueOf? (formatNumber d) = some d.value := by
  rw [valueOf?, parseNumber_formatNumber h]
  show some d.expanded.value = some d.value
  rw [Decimal.value_expanded]

/-- A reading or a calculation gives a number of a value, or fails if there is no value. -/
inductive Computes : Option ℚ → Except Failure Decimal → Prop
  | value {d : Decimal} (held : d.IsHeld) : Computes (some d.value) (.ok d)
  | failure (f : Failure) : Computes none (.error f)

theorem computes_parseNumber (shown : List Char) :
    Computes (valueOf? shown) (parseNumber shown) := by
  unfold valueOf?
  cases h : parseNumber shown with
  | error f => exact .failure f
  | ok d => exact .value (isHeld_of_parseNumber h)

/-! ## Operator keys -/

namespace Operator

/-- The exact result of an operation on two values; a division by zero has none. -/
def unrounded? : Operator → ℚ → ℚ → Option ℚ
  | .plus, u, x => some (u + x)
  | .minus, u, x => some (u - x)
  | .asterisk, u, x | .times, u, x => some (u * x)
  | .slash, u, x | .obelus, u, x => if x = 0 then none else some (u / x)

/-- What an operator key computes from two values: the nearest one at the working precision, unless
    it would be too large. -/
def step? (o : Operator) (u x : ℚ) : Option ℚ :=
  ((o.unrounded? u x).map Decimal.nearest).filter fun v => |v| < Decimal.tooLarge

end Operator

theorem Computes.isHeld {v? : Option ℚ} (h : Computes v? (.ok d)) : d.IsHeld := by
  cases h with
  | value held => exact held

theorem computes_of_rounds {q : ℚ} {r : Except Decimal.Signal Decimal}
    (h : Decimal.Rounds q r) (f : Decimal.Signal → Failure) :
    Computes ((some (Decimal.nearest q)).filter fun v => |v| < Decimal.tooLarge)
      (r.mapError f) := by
  cases h with
  | ok held value range =>
    rw [Option.filter_some_pos (by simpa using range), ← value]
    exact .value held
  | overflow range =>
    rw [Option.filter_some_neg (by simpa using range)]
    exact .failure _

theorem apply_eq_mapError (hb : b.isFinite = true) (h : o.isDivision = true → b.isZero = false) :
    apply o a b = (o.compute a b).mapError .arithmetic := by
  have hquiet : b.isSignaling = false := by
    obtain ⟨negative, c, e, rfl⟩ := Decimal.eq_finite_of_isFinite hb
    rfl
  have hzero : (o.isDivision && b.isZero) = false := by
    cases hdivides : o.isDivision with
    | true => rw [h hdivides, Bool.and_false]
    | false => rfl
  rw [apply, hquiet, hzero, Bool.and_false, if_neg Bool.false_ne_true, if_neg Bool.false_ne_true]
  cases o.compute a b <;> rfl

theorem apply_of_isZero (hb : b.isFinite = true) (hdivides : o.isDivision = true)
    (hzero : b.isZero = true) : apply o a b = .error .divisionByZero := by
  obtain ⟨negative, c, e, rfl⟩ := Decimal.eq_finite_of_isFinite hb
  rw [apply, hdivides, hzero]
  rfl

theorem computes_divide (hdivides : o.isDivision = true) (hcompute : o.compute = Decimal.div)
    (hexact : ∀ u x, o.unrounded? u x = if x = 0 then none else some (u / x))
    (ha : a.isFinite = true) (hb : b.isFinite = true) :
    Computes (o.step? a.value b.value) (apply o a b) := by
  rw [Operator.step?, hexact]
  cases hzero : b.isZero with
  | true =>
    rw [apply_of_isZero hb hdivides hzero, if_pos ((Decimal.isZero_iff hb).mp hzero)]
    exact .failure _
  | false =>
    have hne : b.value ≠ 0 := by
      rw [Ne, ← Decimal.isZero_iff hb, hzero]
      exact Bool.false_ne_true
    rw [apply_eq_mapError hb fun _ => hzero, hcompute, if_neg hne]
    exact computes_of_rounds (Decimal.rounds_div ha hb hzero) _

/-- Operator keys compute the nearest value, or fail if there is none. -/
theorem computes_apply (o : Operator) (ha : a.isFinite = true) (hb : b.isFinite = true) :
    Computes (o.step? a.value b.value) (apply o a b) := by
  cases o with
  | plus =>
    rw [apply_eq_mapError hb (fun h => by cases h)]
    exact computes_of_rounds (Decimal.rounds_add ha hb) _
  | minus =>
    rw [apply_eq_mapError hb (fun h => by cases h)]
    exact computes_of_rounds (Decimal.rounds_sub ha hb) _
  | asterisk | times =>
    rw [apply_eq_mapError hb (fun h => by cases h)]
    exact computes_of_rounds (Decimal.rounds_mul ha hb) _
  | slash | obelus => exact computes_divide rfl rfl (fun _ _ => rfl) ha hb

theorem isHeld_of_apply (hread : parseNumber shown = .ok a) (hb : b.isFinite = true)
    (happly : apply o a b = .ok d) : d.IsHeld := by
  have hcomputes := computes_apply o (isFinite_of_parseNumber hread) hb
  rw [happly] at hcomputes
  exact hcomputes.isHeld

theorem isFinite_of_apply (hread : parseNumber shown = .ok a) (hb : b.isFinite = true)
    (happly : apply o a b = .ok d) : d.isFinite = true :=
  Decimal.isFinite_of_isHeld (isHeld_of_apply hread hb happly)

/-! ## Percentages -/

/-- A percentage can be put on display. -/
theorem isHeld_of_percentage {k : Keypad} (h : k.percentage = .ok d) : d.IsHeld := by
  unfold percentage at h
  cases hvalue : parseNumber k.display with
  | error f =>
    rw [hvalue] at h
    cases h
  | ok value =>
    have hfinite := isFinite_of_parseNumber hvalue
    have hdiv := Decimal.rounds_div hfinite (b := hundred) rfl rfl
    rw [hvalue] at h
    dsimp only at h
    split at h
    · exact (h ▸ computes_of_rounds hdiv _).isHeld
    · split at h
      · cases h
      · next left hleft =>
        have hleft := isFinite_of_parseNumber hleft
        generalize value.div hundred = quotient at h hdiv
        cases hdiv with
        | overflow => cases h
        | ok held =>
          have hmul := Decimal.rounds_mul hleft (Decimal.isFinite_of_isHeld held)
          exact (h ▸ computes_of_rounds hmul _).isHeld

end Keypad

end Cambio
