import Cambio.Proofs.Keypad.Display
import Cambio.Proofs.Keypad.Step

/-!
# Consistent states

The parts of a calculator's state agree with each other after any keys, with whatever texts the
digit and operator keys come. A failure shows on display and in words and nowhere else, an operator
or a result that was just shown fits the pending operation, and what is pending is a number and an
operator.

## Main definitions

- `Keypad.splitAtLastSpace` — the parts of a text before and after its last space
- `Keypad.IsEntry` — a display without a failure
- `Keypad.IsSound` — what every key preserves
- `Keypad.IsConsistent` — the agreement of the parts

## Main statements

- `Keypad.IsSound.press` — every key preserves it
- `Keypad.value_of_equals`, `Keypad.value_of_operator` — what is on display is the last result
- `Keypad.consistent_pressAll` — the states after any keys
-/

namespace Cambio

theorem Decimal.Numeral.count_point_text (n : Numeral) : n.text.count '.' ≤ 1 := by
  have hdigits {ds : List Char} (h : ∀ c ∈ ds, isBasicDigit c = true) : ds.count '.' = 0 :=
    List.count_eq_zero.mpr fun hmem => absurd (h '.' hmem) (by decide)
  have hsign : (signText n.negative).count '.' = 0 := by
    cases n.negative <;> rfl
  have hwhole := hdigits fun c => n.isBasicDigit_of_mem_whole (c := c)
  cases hfraction : n.fraction with
  | none => simp [text, n.body_eq_of_none hfraction, hsign, hwhole]
  | some ds =>
    have hds := hdigits fun c => n.isBasicDigit_of_mem_fraction hfraction (c := c)
    simp [text, n.body_eq_of_some hfraction, hsign, hwhole, hds]

namespace Keypad

variable {k : Keypad} {shown : List Char} {d : Decimal}

/-! ## Texts -/

/-- The parts of a text before and after its last space. -/
def splitAtLastSpace (s : List Char) : List Char × List Char :=
  ((s.reverse.dropWhile (· ≠ ' ')).tail.reverse, (s.reverse.takeWhile (· ≠ ' ')).reverse)

theorem splitAtLastSpace_text (p : Pending) :
    splitAtLastSpace p.text = (p.left, [p.operator.symbol]) := by
  have hsymbol : p.operator.symbol ≠ ' ' := by
    cases p.operator <;> decide
  simp [splitAtLastSpace, Pending.text, hsymbol]

/-- A display without a failure: digits of any script and signs, with at most one point. -/
structure IsEntry (shown : List Char) : Prop where
  chars : ∀ c ∈ shown, Text.isDigit c = true ∨ c = '.' ∨ c = '-'
  points : shown.count '.' ≤ 1

theorem IsEntry.ne_errorDisplay (h : IsEntry shown) : shown ≠ errorDisplay := by
  rintro rfl
  have hletter := h.chars 'E' (by decide)
  revert hletter
  decide

theorem isEntry_numeral (n : Decimal.Numeral) : IsEntry n.text where
  chars c hc := by
    rcases n.isPlain_of_mem_text hc with hdigit | hpoint | hsign
    · exact .inl (isDigit_of_isBasicDigit hdigit)
    · exact .inr (.inl hpoint)
    · exact .inr (.inr hsign)
  points := n.count_point_text

theorem isEntry_blankDisplay : IsEntry blankDisplay :=
  isEntry_numeral (oneDigit '0' rfl)

theorem isEntry_formatNumber (h : d.isFinite = true) : IsEntry (formatNumber d) := by
  obtain ⟨negative, c, e, rfl⟩ := Decimal.eq_finite_of_isFinite h
  obtain ⟨n, htext, -⟩ := Decimal.exists_numeral_fixed negative c e
  rw [formatNumber, ← htext]
  exact isEntry_numeral n

theorem IsEntry.append_digit (h : IsEntry shown) {c : Char} (hc : Text.isDigit c = true) :
    IsEntry (shown ++ [c]) where
  chars x hx := by
    rcases List.mem_append.mp hx with hshown | hlast
    · exact h.chars x hshown
    · exact .inl (List.mem_singleton.mp hlast ▸ hc)
  points := by
    rw [List.count_append, List.count_singleton, if_neg (by simpa using ne_point_of_isDigit hc)]
    exact h.points

theorem isEntry_nil : IsEntry [] :=
  ⟨fun _ hc => absurd hc List.not_mem_nil, Nat.zero_le 1⟩

theorem isEntry_digit {c : Char} (hc : Text.isDigit c = true) : IsEntry [c] :=
  isEntry_nil.append_digit hc

theorem IsEntry.point (h : IsEntry shown) :
    IsEntry (if '.' ∈ shown then shown else shown ++ ['.']) := by
  split
  · exact h
  · next hnone =>
    refine ⟨?_, ?_⟩
    · intro x hx
      rcases List.mem_append.mp hx with hshown | hlast
      · exact h.chars x hshown
      · exact .inr (.inl (List.mem_singleton.mp hlast))
    · rw [List.count_append, List.count_eq_zero.mpr hnone]
      decide

theorem IsEntry.sublist {part : List Char} (h : IsEntry shown) (hpart : part.Sublist shown) :
    IsEntry part where
  chars c hc := h.chars c (hpart.subset hc)
  points := (hpart.count_le '.').trans h.points

theorem IsEntry.otherSign (h : IsEntry shown) : IsEntry (Decimal.Numeral.otherSign shown) := by
  unfold Decimal.Numeral.otherSign
  split
  · exact h.sublist (List.sublist_cons_self _ _)
  · refine ⟨?_, ?_⟩
    · intro c hc
      rcases List.mem_cons.mp hc with rfl | hshown
      · exact .inr (.inr rfl)
      · exact h.chars c hshown
    · rw [List.count_cons_of_ne (by decide)]
      exact h.points

/-! ## Sound states -/

theorem hasError_recovered (k : Keypad) : k.recovered.hasError = false := by
  unfold recovered
  split
  · rfl
  · next h => simpa using h

/-- What every key preserves: each part of the state is what it should be, given the others. -/
structure IsSound (k : Keypad) : Prop where
  entry : k.hasError = false → IsEntry k.display
  error : k.hasError = true → k.display = errorDisplay
  /-- What is pending has a number on its left. -/
  left : ∀ p, k.pending = some p → ∃ d, parseNumber p.left = .ok d
  afterOperator : k.phase = .afterOperator → ∃ p, k.pending = some p
  afterEquals : k.phase = .afterEquals → k.pending = none ∧ ∃ o, k.lastOperator = some o
  result : k.result.isFinite = true
  operand : k.lastOperand.isFinite = true

namespace IsSound

theorem fresh : IsSound fresh where
  entry _ := isEntry_blankDisplay
  error h := by cases h
  left p h := by cases h
  afterOperator h := by cases h
  afterEquals h := by cases h
  result := rfl
  operand := rfl

theorem fail (h : IsSound k) (f : Failure) : IsSound (k.fail f) where
  entry herror := by cases herror
  error _ := rfl
  left := h.left
  afterOperator := h.afterOperator
  afterEquals := h.afterEquals
  result := h.result
  operand := h.operand

theorem recovered (h : IsSound k) : IsSound k.recovered := by
  unfold Keypad.recovered
  split
  · exact fresh
  · exact h

/-- Another entry on display changes nothing else, also if the display is under edit from now on. -/
theorem withDisplay (h : IsSound k) (herror : k.hasError = false) (hshown : IsEntry shown) :
    IsSound { k with display := shown } where
  entry _ := hshown
  error hfailed := by cases herror.symm.trans hfailed
  left := h.left
  afterOperator := h.afterOperator
  afterEquals := h.afterEquals
  result := h.result
  operand := h.operand

theorem editing (h : IsSound k) (herror : k.hasError = false) (hshown : IsEntry shown) :
    IsSound { k with display := shown, phase := .editing } where
  entry _ := hshown
  error hfailed := by cases herror.symm.trans hfailed
  left := h.left
  afterOperator hphase := by cases hphase
  afterEquals hphase := by cases hphase
  result := h.result
  operand := h.operand

theorem enter (h : IsSound k) (herror : k.hasError = false) {start continued : List Char}
    (hstart : IsEntry start) (hcontinued : IsEntry continued) :
    IsSound (k.enter start continued) := by
  unfold Keypad.enter
  split
  · exact h.withDisplay herror hcontinued
  · exact h.editing herror hstart

/-! ## Keys -/

theorem digit (h : IsSound k) (text : List Char) : IsSound (k.digit text) := by
  have hfresh := hasError_recovered k
  have hsound := h.recovered
  unfold Keypad.digit
  dsimp only
  split
  · next c =>
    split
    · next hc =>
      apply hsound.enter hfresh (isEntry_digit hc)
      split
      · exact isEntry_digit hc
      · exact (hsound.entry hfresh).append_digit hc
    · exact hsound.fail _
  · exact hsound.fail _

theorem point (h : IsSound k) : IsSound k.point := by
  have hfresh := hasError_recovered k
  have hsound := h.recovered
  have hstart : IsEntry ['0', '.'] := isEntry_numeral (oneDigit '0' rfl).withPoint
  exact hsound.enter hfresh hstart (hsound.entry hfresh).point

/-- Results of operations can be put on display. -/
theorem showResult (h : IsSound k) (herror : k.hasError = false) (hd : d.isFinite = true) :
    IsSound (k.showResult d) :=
  { h.withDisplay herror (isEntry_formatNumber hd) with result := hd }

theorem repeatEquals (h : IsSound k) (herror : k.hasError = false) (o : Operator) :
    IsSound (k.repeatEquals o) := by
  cases repeating k o with
  | shown x d read applied eq =>
    rw [eq]
    exact h.showResult herror (isFinite_of_apply read h.operand applied)
  | unread f _ eq | undefined _ f _ _ eq =>
    rw [eq]
    exact h.fail f

theorem takeDisplay (h : IsSound k) : IsSound k.takeDisplay := by
  cases taking k with
  | taken d read eq =>
    rw [eq]
    exact { h with result := isFinite_of_parseNumber read }
  | unread f _ eq =>
    rw [eq]
    exact h.fail f

theorem remembering (h : IsSound k) (o : Operator) (hd : d.isFinite = true) :
    IsSound (k.remembering o d) :=
  { h with
    afterEquals := fun hphase => ⟨(h.afterEquals hphase).1, o, rfl⟩
    operand := hd }

theorem complete (h : IsSound k) (herror : k.hasError = false) (p : Pending) :
    IsSound (k.complete p) := by
  cases completing k p with
  | shown left right d readLeft readRight applied eq =>
    have hright := isFinite_of_parseNumber readRight
    have hresult := (h.remembering p.operator hright).showResult herror
      (isFinite_of_apply readLeft hright applied)
    rw [eq]
    exact { hresult with
      left := fun p hnone => by cases hnone
      afterOperator := fun hphase => by cases hphase
      afterEquals := fun _ => ⟨rfl, p.operator, rfl⟩ }
  | unread f _ eq =>
    rw [eq]
    exact h.fail f
  | undefined left right f readLeft readRight applied eq =>
    rw [eq]
    exact (h.remembering _ (isFinite_of_parseNumber readRight)).fail f

theorem equals (h : IsSound k) : IsSound k.equals := by
  cases equalling k with
  | ignored _ eq =>
    rw [eq]
    exact h
  | repeated o herror _ _ eq => exact eq ▸ h.repeatEquals herror o
  | taken _ _ eq => exact eq ▸ h.takeDisplay
  | completed p herror _ eq => exact eq ▸ h.complete herror p

theorem await (h : IsSound k) (herror : k.hasError = false) (symbol : List Char) :
    IsSound (k.await symbol) := by
  cases awaiting k symbol with
  | waits o left _ read eq =>
    have hheld := isHeld_of_parseNumber read
    rw [eq]
    exact
      { entry := fun _ => h.entry herror
        error := fun hfailed => by cases herror.symm.trans hfailed
        left := by
          rintro p ⟨⟩
          exact ⟨left.expanded, parseNumber_formatNumber hheld⟩
        afterOperator := fun _ => ⟨_, rfl⟩
        afterEquals := fun hphase => by cases hphase
        result := Decimal.isFinite_of_isHeld hheld
        operand := h.operand }
  | unknown f _ eq | unread f _ eq =>
    rw [eq]
    exact h.fail f

theorem operator (h : IsSound k) (symbol : List Char) : IsSound (k.operator symbol) := by
  cases operating k symbol with
  | awaits _ eq => exact eq ▸ h.recovered.await (hasError_recovered k) symbol
  | failed _ _ _ _ eq => exact eq ▸ h.recovered.equals
  | completes _ _ _ herror eq => exact eq ▸ h.recovered.equals.await herror symbol

theorem clearEntry (h : IsSound k) : IsSound k.clearEntry := by
  unfold Keypad.clearEntry
  split
  · exact fresh
  · next herror => exact h.editing (by simpa using herror) isEntry_blankDisplay

theorem backspace (h : IsSound k) : IsSound k.backspace := by
  unfold Keypad.backspace
  split
  · exact fresh
  · next herror =>
    have herror : k.hasError = false := by simpa using herror
    split
    · apply h.withDisplay herror
      split
      · exact (h.entry herror).sublist (List.dropLast_sublist _)
      · exact isEntry_blankDisplay
    · exact h

theorem sign (h : IsSound k) : IsSound k.sign := by
  cases herror : k.hasError with
  | true =>
    rw [Keypad.sign, if_pos herror]
    exact fresh
  | false =>
    rw [sign_of_not_hasError herror]
    split
    · exact h
    · exact h.withDisplay herror (h.entry herror).otherSign

theorem percent (h : IsSound k) : IsSound k.percent := by
  unfold Keypad.percent
  split
  · exact fresh
  · next herror =>
    split
    · next d hd =>
      have hfinite := Decimal.isFinite_of_isHeld (isHeld_of_percentage hd)
      exact h.withDisplay (by simpa using herror) (isEntry_formatNumber hfinite)
    · exact h.fail _

theorem press (h : IsSound k) (key : Key) : IsSound (k.press key) := by
  cases key with
  | digit text => exact h.digit text
  | point => exact h.point
  | operator symbol => exact h.operator symbol
  | equals => exact h.equals
  | clear => exact fresh
  | clearEntry => exact h.clearEntry
  | backspace => exact h.backspace
  | sign => exact h.sign
  | percent => exact h.percent

theorem pressAll (h : IsSound k) (keys : List Key) : IsSound (k.pressAll keys) := by
  induction keys generalizing k with
  | nil => exact h
  | cons key keys ih => exact ih (h.press key)

end IsSound

/-! ## The last result -/

/-- Unless it fails, equals leaves the last result on display. -/
theorem value_of_equals (h : IsSound k) (herror : k.equals.hasError = false) :
    valueOf? k.equals.display = some k.equals.result.value := by
  cases equalling k with
  | ignored hfailed eq =>
    rw [eq, hfailed] at herror
    cases herror
  | repeated o _ _ _ eq =>
    rw [eq] at herror ⊢
    cases repeating k o with
    | shown x d read applied eq =>
      rw [eq]
      exact valueOf?_formatNumber (isHeld_of_apply read h.operand applied)
    | unread f _ eq | undefined _ f _ _ eq =>
      rw [eq] at herror
      cases herror
  | taken _ _ eq =>
    rw [eq] at herror ⊢
    cases taking k with
    | taken d read eq =>
      rw [eq]
      exact valueOf?_eq_some_iff.mpr ⟨d, read, rfl⟩
    | unread f _ eq =>
      rw [eq] at herror
      cases herror
  | completed p _ _ eq =>
    rw [eq] at herror ⊢
    cases completing k p with
    | shown left right d readLeft readRight applied eq =>
      have hright := isFinite_of_parseNumber readRight
      rw [eq]
      exact valueOf?_formatNumber (isHeld_of_apply readLeft hright applied)
    | unread f _ eq | undefined _ _ f _ _ _ eq =>
      rw [eq] at herror
      cases herror

theorem value_of_await {symbol : List Char} (herror : (k.await symbol).hasError = false) :
    valueOf? (k.await symbol).display = some (k.await symbol).result.value := by
  cases awaiting k symbol with
  | waits o left _ read eq =>
    rw [eq]
    exact valueOf?_eq_some_iff.mpr ⟨left, read, rfl⟩
  | unknown f _ eq | unread f _ eq =>
    rw [eq] at herror
    cases herror

/-- Unless it fails, an operator key leaves the last result on display, its left operand. -/
theorem value_of_operator {symbol : List Char} (herror : (k.operator symbol).hasError = false) :
    valueOf? (k.operator symbol).display = some (k.operator symbol).result.value := by
  cases operating k symbol with
  | awaits _ eq | completes _ _ _ _ eq =>
    rw [eq] at herror ⊢
    exact value_of_await herror
  | failed _ _ _ hfailed eq =>
    rw [eq, hfailed] at herror
    cases herror

/-! ## Consistent states -/

theorem message_ne_empty (f : Failure) : f.message ≠ "" := by
  have happend {s t : String} (h : s ≠ "") : s ++ t ≠ "" := fun hempty =>
    h (String.append_eq_empty_iff.mp hempty).1
  cases f with
  | divisionByZero => decide
  | invalidNumber | invalidDigit | unknownOperator | arithmetic | percentage =>
    exact happend (by decide)

/-- The parts of the state agree with each other. -/
structure IsConsistent (k : Keypad) : Prop where
  error_iff_display : k.hasError = true ↔ k.display = errorDisplay
  error_iff_message : k.hasError = true ↔ k.errorMessage ≠ ""
  points : k.display.count '.' ≤ 1
  /-- The last key was not both an operator and equals. -/
  phase : ¬ (k.phase = .afterOperator ∧ k.phase = .afterEquals)
  afterOperator : k.phase = .afterOperator → k.expression ≠ []
  afterEquals : k.phase = .afterEquals → k.expression = [] ∧ ∃ o, k.lastOperator = some o
  /-- The pending operation as it is shown is a number, a space and the symbol of an operator. -/
  expression : k.expression ≠ [] →
    (∃ d, parseNumber (splitAtLastSpace k.expression).1 = .ok d) ∧
      ∃ o, Operator.ofSymbol? (splitAtLastSpace k.expression).2 = some o
  result : k.result.isFinite = true

theorem Pending.text_ne_nil (p : Pending) : p.text ≠ [] :=
  List.append_ne_nil_of_right_ne_nil _ (List.cons_ne_nil _ _)

theorem expression_of_pending {p : Pending} (h : k.pending = some p) : k.expression = p.text := by
  rw [expression, h]

theorem expression_of_none (h : k.pending = none) : k.expression = [] := by
  rw [expression, h]

theorem IsSound.isConsistent (h : IsSound k) : IsConsistent k where
  error_iff_display := by
    refine ⟨h.error, fun hdisplay => ?_⟩
    by_contra herror
    exact (h.entry (by simpa using herror)).ne_errorDisplay hdisplay
  error_iff_message := by
    unfold hasError errorMessage
    cases k.failure with
    | none => simp
    | some f => simp [message_ne_empty f]
  points := by
    cases herror : k.hasError with
    | true =>
      rw [h.error herror]
      decide
    | false => exact (h.entry herror).points
  phase := by
    rintro ⟨hoperator, hequals⟩
    cases hoperator.symm.trans hequals
  afterOperator hphase := by
    obtain ⟨p, hpending⟩ := h.afterOperator hphase
    rw [expression_of_pending hpending]
    exact p.text_ne_nil
  afterEquals hphase := by
    obtain ⟨hpending, hlast⟩ := h.afterEquals hphase
    exact ⟨expression_of_none hpending, hlast⟩
  expression hexpression := by
    cases hpending : k.pending with
    | none => exact absurd (expression_of_none hpending) hexpression
    | some p =>
      rw [expression_of_pending hpending, splitAtLastSpace_text]
      exact ⟨h.left p hpending, p.operator, ofSymbol?_symbol p.operator⟩
  result := h.result

end Keypad

end Cambio
