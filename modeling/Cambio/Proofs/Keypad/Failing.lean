import Cambio.Proofs.Keypad.Pending
import Cambio.Proofs.Keypad.Repeat

/-!
# Failing calculations

Equals, an operator key and percent may fail. Then the last result and the pending operation are
what they were, whichever way the key took. The failure is a division by zero exactly if the key
applies a division to two numbers of which the right one is zero. A repeated division never is one:
its right operand is that of a division that had a result.

## Main definitions

- `Keypad.Applies` — a key applies an operator to two numbers
- `Keypad.IsRepeatable` — what equals would repeat is no division by zero
- `Keypad.FailureRules` — what holds of a key that may fail

## Main statements

- `Keypad.IsRepeatable.press` — every key preserves it
- `Keypad.failure_equals_iff`, `Keypad.failure_operator_iff` — when a key divides by zero
- `Keypad.failureRules_pressAll` — the rules for the states after any keys
-/

namespace Cambio.Keypad

variable {k k' : Keypad} {key : Key} {o : Operator} {p : Pending} {a b d : Decimal} {f : Failure}
  {shown symbol : List Char}

/-! ## Causes of failures -/

theorem parseNumber_ne_divisionByZero : parseNumber shown ≠ .error .divisionByZero := by
  intro h
  unfold parseNumber at h
  split at h
  · split at h <;> cases h
  · cases h

theorem apply_eq_divisionByZero_iff (hb : b.isFinite = true) :
    apply o a b = .error .divisionByZero ↔ o.isDivision = true ∧ b.value = 0 := by
  rw [← Decimal.isZero_iff hb]
  constructor
  · intro h
    by_contra hnot
    rw [apply_eq_mapError hb fun hdivides => by simpa [hdivides] using hnot] at h
    cases hresult : o.compute a b <;> rw [hresult] at h <;> cases h
  · rintro ⟨hdivides, hzero⟩
    exact apply_of_isZero hb hdivides hzero

theorem percentage_ne_divisionByZero : k.percentage ≠ .error .divisionByZero := by
  have hmapped (r : Except Decimal.Signal Decimal) :
      r.mapError Failure.percentage ≠ .error .divisionByZero := by
    cases r <;> nofun
  intro h
  unfold percentage at h
  split at h
  · next f hread =>
    cases h
    exact parseNumber_ne_divisionByZero hread
  · dsimp only at h
    split at h
    · exact hmapped _ h
    · split at h
      · next f hread =>
        cases h
        exact parseNumber_ne_divisionByZero hread
      · exact hmapped _ h

theorem message_eq_iff : f.message = "Division by zero" ↔ f = .divisionByZero := by
  -- no other message starts with the same letter
  have happend {start rest : String} (h : start.toList.head?.any (· ≠ 'D') = true) :
      start ++ rest ≠ "Division by zero" := by
    intro heq
    have hletters := congrArg String.toList heq
    rw [String.toList_append] at hletters
    cases hstart : start.toList with
    | nil => simp [hstart] at h
    | cons c cs =>
      rw [hstart] at h hletters
      obtain ⟨rfl, -⟩ := List.cons.inj hletters
      cases h
  cases f with
  | divisionByZero => exact iff_of_true rfl rfl
  | invalidNumber | invalidDigit | unknownOperator | arithmetic | percentage =>
    exact iff_of_false (happend (by decide)) nofun

/-- The failure on display is a division by zero if it says so. -/
theorem errorMessage_eq_iff :
    k.errorMessage = "Division by zero" ↔ k.failure = some .divisionByZero := by
  unfold errorMessage
  cases k.failure with
  | none => exact iff_of_false (by decide) nofun
  | some f => rw [message_eq_iff, Option.some.injEq]

/-! ## What is applied -/

/-- A key applies an operator to two operands that are numbers. -/
inductive Applies (k : Keypad) : Key → Operator → Decimal → Decimal → Prop
  /-- Equals computes what is pending. -/
  | pending {p : Pending} {left right : Decimal} (hpending : k.pending = some p)
      (hleft : parseNumber p.left = .ok left) (hright : parseNumber k.display = .ok right) :
      Applies k .equals p.operator left right
  /-- Equals repeats the last operation on the display. -/
  | repeated {o : Operator} {left : Decimal} (hphase : k.phase = .afterEquals)
      (hremembered : k.lastOperator = some o) (hleft : parseNumber k.display = .ok left) :
      Applies k .equals o left k.lastOperand
  /-- An operator key computes what is pending, unless the operator before it is only replaced. -/
  | chained {p : Pending} {left right : Decimal} {symbol : List Char}
      (hpending : k.pending = some p) (hphase : k.phase ≠ .afterOperator)
      (hleft : parseNumber p.left = .ok left) (hright : parseNumber k.display = .ok right) :
      Applies k (.operator symbol) p.operator left right

/-- A key divides by zero. -/
def DividesByZero (k : Keypad) (key : Key) : Prop :=
  ∃ o left right, Applies k key o left right ∧ o.isDivision = true ∧ right.value = 0

/-- A key leaves the result and what is pending as they were if it fails. -/
def KeepsResult (k k' : Keypad) : Prop :=
  k'.hasError = true → k'.result = k.result ∧ k'.pending = k.pending

theorem keepsResult_fail (k : Keypad) (f : Failure) : KeepsResult k (k.fail f) :=
  fun _ => ⟨rfl, rfl⟩

theorem keepsResult_of_not_hasError (h : k'.hasError = false) : KeepsResult k k' :=
  fun herror => by cases h.symm.trans herror

/-! ## Equals -/

theorem keepsResult_equals (herror : k.hasError = false) : KeepsResult k k.equals := by
  cases equalling k with
  | ignored hfailed => cases herror.symm.trans hfailed
  | repeated o _ _ _ eq =>
    rw [eq]
    cases repeating k o with
    | shown x d _ _ eq => exact eq ▸ keepsResult_of_not_hasError herror
    | unread f _ eq | undefined _ f _ _ eq => exact eq ▸ keepsResult_fail k f
  | taken _ _ eq =>
    rw [eq]
    cases taking k with
    | taken d _ eq => exact eq ▸ keepsResult_of_not_hasError herror
    | unread f _ eq => exact eq ▸ keepsResult_fail k f
  | completed p _ _ eq =>
    rw [eq]
    cases completing k p with
    | shown _ _ d _ _ _ eq => exact eq ▸ keepsResult_of_not_hasError herror
    | unread f _ eq => exact eq ▸ keepsResult_fail k f
    | undefined _ _ f _ _ _ eq =>
      rw [eq]
      exact fun _ => ⟨rfl, rfl⟩

theorem hasError_of_failure (h : k.failure = some f) : k.hasError = true := by
  rw [hasError, h]
  rfl

theorem failure_ne_of_not_hasError (h : k.hasError = false) : k.failure ≠ some f :=
  fun hfailure => by cases h.symm.trans (hasError_of_failure hfailure)

theorem failure_fail_iff (k : Keypad) (f : Failure) :
    (k.fail f).failure = some .divisionByZero ↔ f = .divisionByZero :=
  Option.some_inj

theorem failure_repeatEquals_iff (herror : k.hasError = false) (h : k.lastOperand.isFinite = true) :
    (k.repeatEquals o).failure = some .divisionByZero ↔
      ∃ x, parseNumber k.display = .ok x ∧ o.isDivision = true ∧ k.lastOperand.value = 0 := by
  cases repeating k o with
  | shown x d read applied eq =>
    rw [eq]
    refine iff_of_false (failure_ne_of_not_hasError herror) ?_
    rintro ⟨-, -, hzero⟩
    cases applied.symm.trans ((apply_eq_divisionByZero_iff h).mpr hzero)
  | unread f read eq =>
    rw [eq, failure_fail_iff]
    refine iff_of_false (fun hf => parseNumber_ne_divisionByZero (hf ▸ read)) ?_
    rintro ⟨x, hx, -⟩
    cases read.symm.trans hx
  | undefined x f read applied eq =>
    have hiff := apply_eq_divisionByZero_iff (o := o) (a := x) h
    rw [applied, Except.error.injEq] at hiff
    rw [eq, failure_fail_iff, hiff]
    exact ⟨fun hzero => ⟨x, read, hzero⟩, fun ⟨_, _, hzero⟩ => hzero⟩

theorem failure_takeDisplay_ne (herror : k.hasError = false) :
    k.takeDisplay.failure ≠ some .divisionByZero := by
  cases taking k with
  | taken d _ eq =>
    rw [eq]
    exact failure_ne_of_not_hasError herror
  | unread f read eq =>
    rw [eq, Ne, failure_fail_iff]
    exact fun hf => parseNumber_ne_divisionByZero (hf ▸ read)

theorem failure_complete_iff (herror : k.hasError = false) :
    (k.complete p).failure = some .divisionByZero ↔
      ∃ left right, parseNumber p.left = .ok left ∧ parseNumber k.display = .ok right ∧
        p.operator.isDivision = true ∧ right.value = 0 := by
  cases completing k p with
  | shown left right d readLeft readRight applied eq =>
    rw [eq]
    refine iff_of_false (failure_ne_of_not_hasError herror) ?_
    rintro ⟨left', right', -, hright, hzero⟩
    cases readRight.symm.trans hright
    have happly : apply p.operator left right = .error .divisionByZero :=
      (apply_eq_divisionByZero_iff (isFinite_of_parseNumber readRight)).mpr hzero
    cases applied.symm.trans happly
  | unread f read eq =>
    rw [eq, failure_fail_iff]
    constructor
    · rintro rfl
      rcases read with read | read <;> exact absurd read parseNumber_ne_divisionByZero
    · rintro ⟨left, right, hleft, hright, -⟩
      rcases read with read | read
      · cases read.symm.trans hleft
      · cases read.symm.trans hright
  | undefined left right f readLeft readRight applied eq =>
    have hiff := apply_eq_divisionByZero_iff (o := p.operator) (a := left)
      (isFinite_of_parseNumber readRight)
    rw [applied, Except.error.injEq] at hiff
    rw [eq, failure_fail_iff, hiff]
    refine ⟨fun hzero => ⟨left, right, readLeft, readRight, hzero⟩, ?_⟩
    rintro ⟨left', right', -, hright, hzero⟩
    cases readRight.symm.trans hright
    exact hzero

/-- Equals divides by zero exactly if that is its failure. -/
theorem failure_equals_iff (h : IsSound k) (herror : k.hasError = false) :
    k.equals.failure = some .divisionByZero ↔ DividesByZero k .equals := by
  by_cases hphase : k.phase = .afterEquals
  · -- nothing is pending after equals, and the last operation is repeated
    obtain ⟨hnone, o, hremembered⟩ := h.afterEquals hphase
    rw [equals_of_remembered herror hphase hremembered, failure_repeatEquals_iff herror h.operand]
    constructor
    · rintro ⟨x, hx, hzero⟩
      exact ⟨o, x, _, .repeated hphase hremembered hx, hzero⟩
    · rintro ⟨o', left, right, happlies, hzero⟩
      cases happlies with
      | pending hpending => cases hnone.symm.trans hpending
      | repeated _ hremembered' hleft =>
        cases hremembered.symm.trans hremembered'
        exact ⟨left, hleft, hzero⟩
  · cases hpending : k.pending with
    | none =>
      rw [equals_of_none herror hphase hpending]
      refine iff_of_false (failure_takeDisplay_ne herror) ?_
      rintro ⟨o, left, right, happlies, -⟩
      cases happlies with
      | pending hsome => cases hpending.symm.trans hsome
      | repeated hafter => exact hphase hafter
    | some p =>
      rw [equals_of_pending herror hphase hpending, failure_complete_iff herror]
      constructor
      · rintro ⟨left, right, hleft, hright, hzero⟩
        exact ⟨p.operator, left, right, .pending hpending hleft hright, hzero⟩
      · rintro ⟨o, left, right, happlies, hzero⟩
        cases happlies with
        | pending hsome hleft hright =>
          cases hpending.symm.trans hsome
          exact ⟨left, right, hleft, hright, hzero⟩
        | repeated hafter => exact absurd hafter hphase

/-! ## Operator keys -/

theorem keepsResult_await (herror : k.hasError = false) (symbol : List Char) :
    KeepsResult k (k.await symbol) := by
  cases awaiting k symbol with
  | waits o left _ _ eq => exact eq ▸ keepsResult_of_not_hasError herror
  | unknown f _ eq | unread f _ eq => exact eq ▸ keepsResult_fail k f

theorem failure_await_ne (herror : k.hasError = false) (o : Operator) :
    (k.await [o.symbol]).failure ≠ some .divisionByZero := by
  cases awaiting k [o.symbol] with
  | waits o' left _ _ eq =>
    rw [eq]
    exact failure_ne_of_not_hasError herror
  | unknown f hunknown eq => cases hunknown.symm.trans (ofSymbol?_symbol o)
  | unread f read eq =>
    rw [eq, Ne, failure_fail_iff]
    exact fun hf => parseNumber_ne_divisionByZero (hf ▸ read)

theorem keepsResult_operator (h : IsSound k) (herror : k.hasError = false) (o : Operator) :
    KeepsResult k (k.operator [o.symbol]) := by
  have hrecovered := recovered_of_not_hasError herror
  cases operating k [o.symbol] with
  | awaits _ eq =>
    rw [eq, hrecovered]
    exact keepsResult_await herror _
  | failed p _ _ _ eq =>
    rw [eq, hrecovered]
    exact keepsResult_equals herror
  | completes p _ _ hcompleted eq =>
    -- a result on display is read back, so that an operator waits after it
    rw [hrecovered] at hcompleted eq
    rw [eq]
    exact keepsResult_of_not_hasError
      (awaits_await hcompleted (value_of_equals h hcompleted) o).error

/-- An operator key that computes what is pending divides by zero if equals does. -/
theorem dividesByZero_operator_iff (h : IsSound k) (hpending : k.pending = some p)
    (hphase : k.phase ≠ .afterOperator) :
    DividesByZero k (.operator symbol) ↔ DividesByZero k .equals := by
  constructor
  · rintro ⟨o, left, right, happlies, hzero⟩
    cases happlies with
    | chained hsome _ hleft hright => exact ⟨_, left, right, .pending hsome hleft hright, hzero⟩
  · rintro ⟨o, left, right, happlies, hzero⟩
    cases happlies with
    | pending hsome hleft hright =>
      exact ⟨_, left, right, .chained hsome hphase hleft hright, hzero⟩
    | repeated hafter => cases hpending.symm.trans (h.afterEquals hafter).1

/-- An operator key divides by zero exactly if that is its failure. -/
theorem failure_operator_iff (h : IsSound k) (herror : k.hasError = false) (o : Operator) :
    (k.operator [o.symbol]).failure = some .divisionByZero ↔
      DividesByZero k (.operator [o.symbol]) := by
  have hrecovered := recovered_of_not_hasError herror
  cases operating k [o.symbol] with
  | awaits hidle eq =>
    rw [hrecovered] at hidle eq
    rw [eq]
    refine iff_of_false (failure_await_ne herror o) ?_
    rintro ⟨_, left, right, happlies, -⟩
    cases happlies with
    | chained hsome hphase =>
      rcases hidle with hnone | hafter
      · cases hnone.symm.trans hsome
      · exact hphase hafter
  | failed p hpending hphase _ eq =>
    rw [hrecovered] at hpending hphase eq
    rw [eq, failure_equals_iff h herror, dividesByZero_operator_iff h hpending hphase]
  | completes p hpending hphase hcompleted eq =>
    rw [hrecovered] at hpending hphase hcompleted eq
    rw [eq, dividesByZero_operator_iff h hpending hphase, ← failure_equals_iff h herror]
    exact iff_of_false (failure_await_ne hcompleted o) (failure_ne_of_not_hasError hcompleted)

/-! ## Percent -/

theorem keepsResult_percent (herror : k.hasError = false) : KeepsResult k k.percent := by
  unfold percent
  rw [herror, if_neg Bool.false_ne_true]
  split
  · exact keepsResult_of_not_hasError herror
  · exact keepsResult_fail k _

theorem failure_percent_iff (herror : k.hasError = false) :
    k.percent.failure = some .divisionByZero ↔ DividesByZero k .percent := by
  refine iff_of_false ?_ ?_
  · unfold percent
    rw [herror, if_neg Bool.false_ne_true]
    split
    · exact failure_ne_of_not_hasError herror
    · next f hf =>
      rw [failure_fail_iff]
      exact fun hzero => percentage_ne_divisionByZero (hzero ▸ hf)
  · rintro ⟨o, left, right, happlies, -⟩
    cases happlies

/-! ## What equals would repeat -/

/-- What equals would repeat is no division by zero. -/
def IsRepeatable (k : Keypad) : Prop :=
  k.phase = .afterEquals → ∀ o, k.lastOperator = some o → o.isDivision = true →
    k.lastOperand.value ≠ 0

theorem isRepeatable_of_phase (h : k.phase ≠ .afterEquals) : IsRepeatable k :=
  fun hphase => absurd hphase h

namespace IsRepeatable

theorem fresh : IsRepeatable fresh :=
  isRepeatable_of_phase (by decide)

theorem recovered (h : IsRepeatable k) : IsRepeatable k.recovered := by
  unfold Keypad.recovered
  split
  · exact fresh
  · exact h

theorem enter (start continued : List Char) : IsRepeatable (k.enter start continued) :=
  isRepeatable_of_phase (ne_afterEquals_of_editing (enter_phase k start continued))

theorem digit (h : IsRepeatable k) (text : List Char) : IsRepeatable (k.digit text) := by
  unfold Keypad.digit
  dsimp only
  split
  · split
    · exact enter _ _
    · exact h.recovered
  · exact h.recovered

/-- Only an operation with a result is remembered after equals. -/
theorem complete (hsound : IsSound k) (h : IsRepeatable k) (hp : k.pending = some p) :
    IsRepeatable (k.complete p) := by
  cases completing k p with
  | shown left right d readLeft readRight applied eq =>
    rw [eq]
    intro _ o hremembered hdivides hzero
    cases hremembered
    have happly : apply p.operator left right = .error .divisionByZero :=
      (apply_eq_divisionByZero_iff (isFinite_of_parseNumber readRight)).mpr ⟨hdivides, hzero⟩
    cases applied.symm.trans happly
  | unread f _ eq =>
    rw [eq]
    exact h
  | undefined left right f _ _ _ eq =>
    rw [eq]
    -- an operation was pending, as it never is after equals
    refine isRepeatable_of_phase fun hafter => ?_
    cases hp.symm.trans (hsound.afterEquals hafter).1

theorem equals (hsound : IsSound k) (h : IsRepeatable k) : IsRepeatable k.equals := by
  cases equalling k with
  | ignored _ eq =>
    rw [eq]
    exact h
  | repeated o _ _ _ eq =>
    rw [eq]
    cases repeating k o with
    | shown x d _ _ eq | unread f _ eq | undefined _ f _ _ eq =>
      rw [eq]
      exact h
  | taken _ _ eq =>
    rw [eq]
    cases taking k with
    | taken d _ eq | unread f _ eq =>
      rw [eq]
      exact h
  | completed p _ hp eq =>
    rw [eq]
    exact complete hsound h hp

theorem await (h : IsRepeatable k) (symbol : List Char) : IsRepeatable (k.await symbol) := by
  cases awaiting k symbol with
  | waits o left _ _ eq =>
    rw [eq]
    exact isRepeatable_of_phase nofun
  | unknown f _ eq | unread f _ eq =>
    rw [eq]
    exact h

theorem operator (hsound : IsSound k) (h : IsRepeatable k) (symbol : List Char) :
    IsRepeatable (k.operator symbol) := by
  have hequals := equals hsound.recovered h.recovered
  cases operating k symbol with
  | awaits _ eq => exact eq ▸ h.recovered.await symbol
  | failed _ _ _ _ eq => exact eq ▸ hequals
  | completes _ _ _ _ eq => exact eq ▸ hequals.await symbol

theorem press (hsound : IsSound k) (h : IsRepeatable k) (key : Key) :
    IsRepeatable (k.press key) := by
  cases key with
  | digit text => exact h.digit text
  | point => exact enter _ _
  | operator symbol => exact operator hsound h symbol
  | equals => exact equals hsound h
  | clear => exact fresh
  | clearEntry =>
    show IsRepeatable k.clearEntry
    unfold clearEntry
    split
    · exact fresh
    · exact isRepeatable_of_phase nofun
  | backspace =>
    show IsRepeatable k.backspace
    unfold backspace
    split
    · exact fresh
    · split
      · exact h
      · exact h
  | sign =>
    show IsRepeatable k.sign
    unfold sign
    split
    · exact fresh
    · split
      · exact h
      · split <;> exact h
  | percent =>
    show IsRepeatable k.percent
    unfold percent
    split
    · exact fresh
    · split <;> exact h

theorem pressAll (hsound : IsSound k) (h : IsRepeatable k) (keys : List Key) :
    IsRepeatable (k.pressAll keys) := by
  induction keys generalizing k with
  | nil => exact h
  | cons key keys ih => exact ih (hsound.press key) (h.press hsound key)

end IsRepeatable

/-! ## The rules -/

/-- The keys that calculate. -/
inductive Key.Calculates : Key → Prop
  | equals : Calculates .equals
  | operator (o : Operator) : Calculates o.key
  | percent : Calculates .percent

/-- What holds of a key that may fail. -/
structure FailureRules (k : Keypad) (key : Key) : Prop where
  /-- A failure leaves the result and the pending operation as they were. -/
  kept : (k.press key).status = .error →
    (k.press key).result = k.result ∧ (k.press key).expression = k.expression
  /-- It is a division by zero exactly if the key applies one. -/
  division : (k.press key).status = .error ∧ (k.press key).errorMessage = "Division by zero" ↔
    DividesByZero k key
  /-- Equals pressed again never divides by zero. -/
  repeated : k.phase = .afterEquals → (k.press .equals).errorMessage ≠ "Division by zero"

theorem hasError_of_status (h : k.status = .error) : k.hasError = true := by
  unfold status at h
  split at h
  · assumption
  · split at h <;> cases h

theorem failureRules (hsound : IsSound k) (h : IsRepeatable k) (herror : k.hasError = false)
    (hkey : key.Calculates) : FailureRules k key := by
  have hkept : KeepsResult k (k.press key) := by
    cases hkey with
    | equals => exact keepsResult_equals herror
    | operator o => exact keepsResult_operator hsound herror o
    | percent => exact keepsResult_percent herror
  have hdivision : (k.press key).failure = some .divisionByZero ↔ DividesByZero k key := by
    cases hkey with
    | equals => exact failure_equals_iff hsound herror
    | operator o => exact failure_operator_iff hsound herror o
    | percent => exact failure_percent_iff herror
  refine ⟨fun hstatus => ?_, ?_, fun hphase => ?_⟩
  · obtain ⟨hresult, hpending⟩ := hkept (hasError_of_status hstatus)
    exact ⟨hresult, by rw [expression, hpending, expression]⟩
  · rw [errorMessage_eq_iff, ← hdivision]
    exact ⟨And.right, fun hfailure =>
      ⟨status_of_hasError (hasError_of_failure hfailure), hfailure⟩⟩
  · rw [Ne, errorMessage_eq_iff]
    show ¬ k.equals.failure = some .divisionByZero
    rw [failure_equals_iff hsound herror]
    rintro ⟨o, left, right, happlies, hdivides, hzero⟩
    cases happlies with
    | pending hpending => cases hpending.symm.trans (hsound.afterEquals hphase).1
    | repeated _ hremembered => exact h hphase o hremembered hdivides hzero

/-- **Failing calculations**: after any keys without a failure at the end, equals, an operator key
    and percent fail without a change of the result and of the pending operation, and the failure is
    a division by zero exactly if they apply a division to a right operand that is zero. -/
theorem failureRules_pressAll (keys : List Key) (herror : (fresh.pressAll keys).hasError = false)
    (hkey : key.Calculates) : FailureRules (fresh.pressAll keys) key :=
  failureRules (IsSound.fresh.pressAll keys) (IsRepeatable.fresh.pressAll .fresh keys) herror hkey

/-- Eight, divided by a nought with a place: the eight and the division stay. -/
theorem failureRules_pressAll_nought :
    let k := fresh.pressAll
      [.digit ['8'], .operator ['÷'], .digit ['0'], .point, .digit ['0']]
    FailureRules k .equals ∧ DividesByZero k .equals ∧
      (k.press .equals).result = .ofNat 8 ∧ (k.press .equals).expression = "8 ÷".toList := by
  intro k
  have hrules : FailureRules k .equals :=
    failureRules_pressAll [.digit ['8'], .operator ['÷'], .digit ['0'], .point, .digit ['0']]
      (by decide +kernel) .equals
  have hfailed : (k.press .equals).status = .error ∧
      (k.press .equals).errorMessage = "Division by zero" := by
    decide +kernel
  obtain ⟨hresult, hexpression⟩ := hrules.kept hfailed.1
  have hbefore : k.result = .ofNat 8 ∧ k.expression = "8 ÷".toList := by decide +kernel
  exact ⟨hrules, hrules.division.mp hfailed, hresult.trans hbefore.1,
    hexpression.trans hbefore.2⟩

end Cambio.Keypad
