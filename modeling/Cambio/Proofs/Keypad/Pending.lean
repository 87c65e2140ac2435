import Cambio.Proofs.Keypad.Chain
import Cambio.Proofs.Keypad.Consistency

/-!
# Operators after a pending operation

An operator key computes what is pending first, if a digit, the point or clear entry came since the
operator before it. These keys start a new right operand. The other keys that change a display are
sign and percent; after an operator they change what is on display but leave it the left operand, so
the next operator key takes the display as it is in place of the pending operation.

## Main definitions

- `Keypad.sinceOperator` — the keys since the last operator key
- `Keypad.Key.isEdit`, `Keypad.Key.enters` — keys that edit the display, keys that start an operand
- `Keypad.Completes`, `Keypad.Replaces` — the two effects of an operator key

## Main statements

- `Keypad.leaving` — what a key does that leaves an operation pending
- `Keypad.press_operator_of_pending` — which effect an operator key has, by the keys before it
-/

namespace Cambio.Keypad

variable {k : Keypad} {key : Key} {keys : List Key} {p : Pending} {o : Operator} {v : ℚ}

/-- An operator key. -/
def Key.isOperator : Key → Bool
  | .operator _ => true
  | _ => false

/-- A key that edits the display. -/
def Key.isEdit : Key → Bool
  | .digit _ | .point | .clearEntry | .backspace | .sign | .percent => true
  | .operator _ | .equals | .clear => false

/-- A key that starts a new operand after an operator. -/
def Key.enters : Key → Bool
  | .digit _ | .point | .clearEntry => true
  | _ => false

/-- The keys since the last operator key, the latest first. -/
def sinceOperator (keys : List Key) : List Key :=
  keys.reverse.takeWhile fun key => !key.isOperator

/-! ## Keys that leave an operation pending -/

theorem hasError_of_recovered (h : k.recovered.pending = some p) : k.hasError = false := by
  cases herror : k.hasError with
  | false => rfl
  | true =>
    rw [recovered_of_hasError herror] at h
    cases h

theorem enter_pending (k : Keypad) (start continued : List Char) :
    (k.enter start continued).pending = k.pending := by
  unfold enter
  split <;> rfl

theorem enter_phase (k : Keypad) (start continued : List Char) :
    (k.enter start continued).phase = .editing := by
  unfold enter
  split
  · next hphase => exact hphase
  · rfl

/-- An edit leaves what is pending, and the operator before it the last one unless it starts an
    operand. -/
theorem press_edit (hedit : key.isEdit = true) (herror : (k.press key).hasError = false) :
    (k.press key).pending = k.recovered.pending ∧
      (k.press key).phase = if key.enters then .editing else k.recovered.phase := by
  cases key with
  | digit text =>
    change (k.digit text).hasError = false at herror
    show (k.digit text).pending = _ ∧ (k.digit text).phase = .editing
    unfold digit at herror ⊢
    dsimp only at herror ⊢
    split at herror
    · split at herror
      · next hc =>
        simp only [if_pos hc]
        exact ⟨enter_pending _ _ _, enter_phase _ _ _⟩
      · cases herror
    · cases herror
  | point => exact ⟨enter_pending _ _ _, enter_phase _ _ _⟩
  | operator symbol => cases hedit
  | equals => cases hedit
  | clear => cases hedit
  | clearEntry =>
    show k.clearEntry.pending = _ ∧ k.clearEntry.phase = .editing
    unfold clearEntry recovered
    split <;> exact ⟨rfl, rfl⟩
  | backspace =>
    show k.backspace.pending = _ ∧ k.backspace.phase = k.recovered.phase
    unfold backspace recovered
    split
    · exact ⟨rfl, rfl⟩
    · split <;> exact ⟨rfl, rfl⟩
  | sign =>
    show k.sign.pending = _ ∧ k.sign.phase = k.recovered.phase
    cases hfailed : k.hasError with
    | true =>
      have hfresh : k.recovered = fresh := if_pos hfailed
      rw [hfresh, sign, if_pos hfailed]
      exact ⟨rfl, rfl⟩
    | false =>
      rw [sign_of_not_hasError hfailed, recovered_of_not_hasError hfailed]
      split <;> exact ⟨rfl, rfl⟩
  | percent =>
    change k.percent.hasError = false at herror
    show k.percent.pending = _ ∧ k.percent.phase = k.recovered.phase
    unfold percent at herror ⊢
    unfold recovered
    split
    · exact ⟨rfl, rfl⟩
    · next hfailed =>
      rw [if_neg hfailed] at herror
      split
      · exact ⟨rfl, rfl⟩
      · next f hf =>
        rw [hf] at herror
        cases herror

/-- Without a failure equals leaves nothing pending. -/
theorem pending_of_equals (h : IsSound k) (herror : k.equals.hasError = false) :
    k.equals.pending = none := by
  cases equalling k with
  | ignored hfailed eq =>
    rw [eq, hfailed] at herror
    cases herror
  | repeated o _ phase _ eq =>
    have hnone := (h.afterEquals phase).1
    rw [eq] at herror ⊢
    cases repeating k o with
    | shown x d _ _ eq =>
      rw [eq]
      exact hnone
    | unread f _ eq | undefined _ f _ _ eq =>
      rw [eq]
      exact hnone
  | taken _ hnone eq =>
    rw [eq]
    cases taking k with
    | taken d _ eq | unread f _ eq =>
      rw [eq]
      exact hnone
  | completed p _ _ eq =>
    rw [eq] at herror ⊢
    cases completing k p with
    | shown _ _ d _ _ _ eq =>
      rw [eq]
      rfl
    | unread f _ eq | undefined _ _ f _ _ _ eq =>
      rw [eq] at herror
      cases herror

/-- The ways of a key that leaves an operation pending without a failure. -/
inductive Leaving (k : Keypad) (key : Key) (p : Pending) : Prop
  | set (eq : key = p.operator.key) (phase : (k.press key).phase = .afterOperator)
  | kept (edit : key.isEdit = true) (error : k.hasError = false) (pending : k.pending = some p)
      (phase : (k.press key).phase = if key.enters then .editing else k.phase)

theorem leaving_await {symbol : List Char} (herror : (k.await symbol).hasError = false)
    (hpending : (k.await symbol).pending = some p) :
    symbol = [p.operator.symbol] ∧ (k.await symbol).phase = .afterOperator := by
  cases awaiting k symbol with
  | waits o left known _ eq =>
    rw [eq] at hpending ⊢
    cases hpending
    exact ⟨known, rfl⟩
  | unknown f _ eq | unread f _ eq =>
    rw [eq] at herror
    cases herror

theorem leaving (h : IsSound k) (herror : (k.press key).hasError = false)
    (hpending : (k.press key).pending = some p) : Leaving k key p := by
  -- an edit keeps what was pending, and of the other keys only an operator leaves something so
  cases hedit : key.isEdit with
  | true =>
    obtain ⟨hkept, hphase⟩ := press_edit hedit herror
    have hbefore := hasError_of_recovered (hkept ▸ hpending)
    rw [recovered_of_not_hasError hbefore] at hkept hphase
    exact .kept hedit hbefore (hkept ▸ hpending) hphase
  | false =>
    cases key with
    | digit | point | clearEntry | backspace | sign | percent => cases hedit
    | equals =>
      cases (pending_of_equals h herror).symm.trans hpending
    | clear => cases hpending
    | operator symbol =>
      change (k.operator symbol).hasError = false at herror
      change (k.operator symbol).pending = some p at hpending
      have hset : symbol = [p.operator.symbol] ∧ (k.operator symbol).phase = .afterOperator := by
        cases operating k symbol with
        | awaits _ eq | completes _ _ _ _ eq =>
          rw [eq] at herror hpending ⊢
          exact leaving_await herror hpending
        | failed _ _ _ hfailed eq =>
          rw [eq, hfailed] at herror
          cases herror
      obtain ⟨rfl, hphase⟩ := hset
      exact .set rfl hphase

/-! ## The keys since the operator -/

theorem sinceOperator_append (keys : List Key) (key : Key) :
    sinceOperator (keys ++ [key]) = if key.isOperator then [] else key :: sinceOperator keys := by
  cases hkey : key.isOperator <;> simp [sinceOperator, hkey]

/-- What is pending was set by the last operator key. Only edits came since, and the operator counts
    as the last key until one of them starts an operand. -/
structure IsSince (keys : List Key) (p : Pending) (phase : Phase) : Prop where
  operator : keys.reverse.find? Key.isOperator = some p.operator.key
  edits : ∀ key ∈ sinceOperator keys, key.isEdit = true
  phase : phase = if (sinceOperator keys).any Key.enters then .editing else .afterOperator

theorem IsSince.edit {phase after : Phase} (h : IsSince keys p phase) (hedit : key.isEdit = true)
    (hafter : after = if key.enters then .editing else phase) :
    IsSince (keys ++ [key]) p after := by
  have hkey : key.isOperator = false := by
    cases key with
    | operator => cases hedit
    | _ => rfl
  have hsince : sinceOperator (keys ++ [key]) = key :: sinceOperator keys := by
    rw [sinceOperator_append, hkey, if_neg Bool.false_ne_true]
  refine ⟨?_, ?_, ?_⟩
  · rw [List.reverse_append, List.reverse_singleton, List.singleton_append,
      List.find?_cons_of_neg (by simp [hkey])]
    exact h.operator
  · rw [hsince]
    exact List.forall_mem_cons.mpr ⟨hedit, h.edits⟩
  · rw [hsince, List.any_cons, hafter, h.phase]
    cases key.enters <;> rfl

theorem isSince_pressAll (keys : List Key) (herror : (fresh.pressAll keys).hasError = false)
    (hpending : (fresh.pressAll keys).pending = some p) :
    IsSince keys p (fresh.pressAll keys).phase := by
  -- from the last key on: it set the operation, or it is an edit after the keys before it
  induction keys using List.reverseRecOn with
  | nil => cases hpending
  | append_singleton keys key ih =>
    rw [pressAll_append] at herror hpending ⊢
    cases leaving (IsSound.fresh.pressAll keys) herror hpending with
    | set eq phase =>
      have hnone : sinceOperator (keys ++ [p.operator.key]) = [] := sinceOperator_append _ _
      subst eq
      refine ⟨?_, ?_, ?_⟩
      · rw [List.reverse_append, List.reverse_singleton, List.singleton_append]
        rfl
      · rw [hnone]
        exact List.forall_mem_nil _
      · rw [hnone]
        exact phase
    | kept edit error pending phase => exact (ih error pending).edit edit phase

/-! ## The two effects -/

/-- The operator key computes the pending operation first. -/
structure Completes (k : Keypad) (p : Pending) (o : Operator) : Prop where
  failure : p.value? k.display = none → (k.press o.key).status = .error
  value : ∀ v, p.value? k.display = some v → Awaits (k.press o.key) v o
  result : ∀ v, p.value? k.display = some v → (k.press o.key).result.value = v
  /-- What is pending now has the result as it is on display. -/
  expression : ∀ v, p.value? k.display = some v →
    (k.press o.key).expression = (k.press o.key).display ++ [' ', o.symbol]

/-- The operator key takes the display in place of the pending operation. -/
structure Replaces (k : Keypad) (o : Operator) : Prop where
  failure : valueOf? k.display = none → (k.press o.key).status = .error
  value : ∀ v, valueOf? k.display = some v → Awaits (k.press o.key) v o
  display : ∀ v, valueOf? k.display = some v → (k.press o.key).display = k.display

theorem status_of_hasError (h : k.hasError = true) : k.status = .error := by
  rw [status, if_pos h]

theorem result_of_awaits (h : Awaits (k.press o.key) v o) : (k.press o.key).result.value = v :=
  Option.some.inj ((value_of_operator h.error).symm.trans h.shown)

/-- A computed result is written in the same way on display and as a left operand. -/
theorem expression_of_await {d : Decimal} (hheld : d.IsHeld) (hdisplay : k.display = formatNumber d)
    (herror : (k.await [o.symbol]).hasError = false) :
    (k.await [o.symbol]).expression = (k.await [o.symbol]).display ++ [' ', o.symbol] := by
  cases awaiting k [o.symbol] with
  | waits o' left known read eq =>
    -- the result is read back with its zeros written out, which its text does not show
    have hleft : left = d.expanded := by
      rw [hdisplay, parseNumber_formatNumber hheld] at read
      exact (Except.ok.inj read).symm
    have hsame : o = o' := Option.some.inj ((ofSymbol?_symbol o).symm.trans
      (ofSymbol?_eq_some_iff.mpr known))
    subst hsame
    rw [eq]
    show formatNumber left ++ [' ', o.symbol] = k.display ++ [' ', o.symbol]
    rw [hdisplay, hleft, formatNumber, Decimal.fixed_expanded, formatNumber]
  | unknown f _ eq | unread f _ eq =>
    rw [eq] at herror
    cases herror

theorem expression_of_completes (hfailed : k.hasError = false) (hpending : k.pending = some p)
    (hphase : k.phase = .editing) (herror : (k.press o.key).hasError = false) :
    (k.press o.key).expression = (k.press o.key).display ++ [' ', o.symbol] := by
  change (k.operator [o.symbol]).hasError = false at herror
  show (k.operator [o.symbol]).expression = (k.operator [o.symbol]).display ++ [' ', o.symbol]
  rw [operator_of_pending hfailed hphase hpending] at herror ⊢
  split at herror
  · next hresult => cases hresult.symm.trans herror
  · next hresult =>
    rw [if_neg hresult]
    cases completing k p with
    | shown left right d readLeft readRight applied eq =>
      have hright := isFinite_of_parseNumber readRight
      exact expression_of_await (isHeld_of_apply readLeft hright applied) (by rw [eq]; rfl) herror
    | unread f _ eq | undefined _ _ f _ _ _ eq =>
      rw [eq] at hresult
      exact absurd (hasError_fail _ f) hresult

theorem completes_of_editing (herror : k.hasError = false) (hpending : k.pending = some p)
    (hphase : k.phase = .editing) (o : Operator) : Completes k p o := by
  have henters : Enters k (p.value? k.display) := ⟨herror, hphase, by rw [hpending]⟩
  obtain ⟨hvalue, hfailure⟩ := press_operator_of_enters henters o
  exact
    { failure := fun hnone => status_of_hasError (hfailure hnone)
      value := hvalue
      result := fun v hv => result_of_awaits (hvalue v hv)
      expression := fun v hv =>
        expression_of_completes herror hpending hphase (hvalue v hv).error }

theorem replaces_of_afterOperator (herror : k.hasError = false) (hphase : k.phase = .afterOperator)
    (o : Operator) : Replaces k o := by
  have hawaits : k.press o.key = k.await [o.symbol] := operator_of_idle herror (.inr hphase)
  have hvalue (v : ℚ) (hv : valueOf? k.display = some v) : Awaits (k.press o.key) v o :=
    hawaits ▸ awaits_await herror hv o
  refine ⟨fun hnone => status_of_hasError (hawaits ▸ hasError_await hnone o), hvalue, ?_⟩
  intro v hv
  have hwaits := (hvalue v hv).error
  rw [hawaits] at hwaits ⊢
  cases awaiting k [o.symbol] with
  | waits o left _ _ eq =>
    rw [eq]
    rfl
  | unknown f _ eq | unread f _ eq =>
    rw [eq] at hwaits
    cases hwaits

/-- **The operator key after a pending operation** computes it, or fails, if a digit, the point or
    clear entry came since its operator; otherwise the pending operation is replaced. -/
theorem press_operator_of_pending (keys : List Key) (p : Pending)
    (herror : (fresh.pressAll keys).hasError = false)
    (hpending : (fresh.pressAll keys).pending = some p) :
    keys.reverse.find? Key.isOperator = some p.operator.key ∧
      (∀ key ∈ sinceOperator keys, key.isEdit = true) ∧
      ∀ o, ((∃ key ∈ sinceOperator keys, key.enters = true) →
          Completes (fresh.pressAll keys) p o) ∧
        ((∀ key ∈ sinceOperator keys, key.enters = false) → Replaces (fresh.pressAll keys) o) := by
  have hsince := isSince_pressAll keys herror hpending
  refine ⟨hsince.operator, hsince.edits, fun o => ⟨fun hsome => ?_, fun hnone => ?_⟩⟩
  · have hphase := hsince.phase
    rw [if_pos (List.any_eq_true.mpr hsome)] at hphase
    exact completes_of_editing herror hpending hphase o
  · have hphase := hsince.phase
    rw [if_neg (by simpa using hnone)] at hphase
    exact replaces_of_afterOperator herror hphase o

/-- Five plus three, times: eight is the left operand of the product. -/
theorem press_operator_of_pending_sum :
    Completes (fresh.pressAll [.digit ['5'], .operator ['+'], .digit ['3']])
        ⟨['5'], .plus⟩ .times ∧
      Pending.value? ⟨['5'], .plus⟩ ['3'] = some 8 := by
  have hsince := (press_operator_of_pending [.digit ['5'], .operator ['+'], .digit ['3']]
    ⟨['5'], .plus⟩ (by decide +kernel) (by decide +kernel)).2.2 .times
  exact ⟨hsince.1 (by decide), by decide +kernel⟩

/-- Five, plus, sign, times: minus five was put on display after the plus and has a sum with the
    five before it, yet it takes the place of the sum as it is. -/
theorem not_completes_of_sign :
    let k := fresh.pressAll [.digit ['5'], .operator ['+'], .sign]
    k.hasError = false ∧ k.pending = some ⟨['5'], .plus⟩ ∧
      (fresh.pressAll [.digit ['5'], .operator ['+']]).display ≠ k.display ∧
      Pending.value? ⟨['5'], .plus⟩ k.display = some 0 ∧
      (k.press Operator.asterisk.key).hasError = false ∧
      (k.press Operator.asterisk.key).display = "-5".toList ∧
      (k.press Operator.asterisk.key).expression = "-5 *".toList := by
  decide +kernel

end Cambio.Keypad
