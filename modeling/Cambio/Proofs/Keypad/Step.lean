import Cambio.Keypad.Basic

/-!
# What equals and operator keys do

Both keys read texts and apply operators, and each of these steps may fail. Their ways are told here
once, each with the state that it ends in, so that what holds of that state can be proved without a
look at the steps.

## Main definitions

- `Keypad.Repeating`, `Keypad.Taking`, `Keypad.Completing`, `Keypad.Awaiting` — the ways of the
  parts
- `Keypad.Equalling`, `Keypad.Operating` — the ways of the keys

## Main statements

- `Keypad.equalling`, `Keypad.operating` — there are no others
- `Keypad.equals_of_remembered`, `Keypad.equals_of_none`, `Keypad.equals_of_pending` — which of
  them equals takes
- `Keypad.operator_of_idle`, `Keypad.operator_of_pending` — which of them an operator key takes
-/

namespace Cambio.Keypad

variable {k : Keypad} {o : Operator} {p : Pending} {symbol : List Char}

theorem ofSymbol?_symbol (o : Operator) : Operator.ofSymbol? [o.symbol] = some o := by
  cases o <;> rfl

theorem ofSymbol?_eq_some_iff : Operator.ofSymbol? symbol = some o ↔ symbol = [o.symbol] := by
  constructor
  · intro h
    simpa using List.find?_some h
  · rintro rfl
    exact ofSymbol?_symbol o

/-! ## The parts -/

/-- The ways of a repeated operation. -/
inductive Repeating (k : Keypad) (o : Operator) : Prop
  | shown (x d : Decimal) (read : parseNumber k.display = .ok x)
      (applied : apply o x k.lastOperand = .ok d) (eq : k.repeatEquals o = k.showResult d)
  | unread (f : Failure) (read : parseNumber k.display = .error f)
      (eq : k.repeatEquals o = k.fail f)
  | undefined (x : Decimal) (f : Failure) (read : parseNumber k.display = .ok x)
      (applied : apply o x k.lastOperand = .error f) (eq : k.repeatEquals o = k.fail f)

theorem repeating (k : Keypad) (o : Operator) : Repeating k o := by
  cases hread : parseNumber k.display with
  | error f =>
    refine .unread f hread ?_
    rw [repeatEquals, hread]
    rfl
  | ok x =>
    have hvalue : (parseNumber k.display >>= fun y => apply o y k.lastOperand) =
        apply o x k.lastOperand := by
      rw [hread]
      rfl
    cases happly : apply o x k.lastOperand with
    | error f => exact .undefined x f hread happly (by rw [repeatEquals, hvalue, happly])
    | ok d => exact .shown x d hread happly (by rw [repeatEquals, hvalue, happly])

/-- The ways of a display that is taken as the result. -/
inductive Taking (k : Keypad) : Prop
  | taken (d : Decimal) (read : parseNumber k.display = .ok d)
      (eq : k.takeDisplay = { k with result := d })
  | unread (f : Failure) (read : parseNumber k.display = .error f) (eq : k.takeDisplay = k.fail f)

theorem taking (k : Keypad) : Taking k := by
  cases hread : parseNumber k.display with
  | error f => exact .unread f hread (by rw [takeDisplay, hread])
  | ok d => exact .taken d hread (by rw [takeDisplay, hread])

/-- A calculator that remembers what repeated equals applies. -/
def remembering (k : Keypad) (o : Operator) (right : Decimal) : Keypad :=
  { k with lastOperand := right, lastOperator := some o }

/-- A calculator that shows the result of the operation that was pending. -/
def completed (k : Keypad) (d : Decimal) : Keypad :=
  { k.showResult d with pending := none, phase := .afterEquals }

/-- The ways of a pending operation that is computed. -/
inductive Completing (k : Keypad) (p : Pending) : Prop
  | shown (left right d : Decimal) (readLeft : parseNumber p.left = .ok left)
      (readRight : parseNumber k.display = .ok right)
      (applied : apply p.operator left right = .ok d)
      (eq : k.complete p = (k.remembering p.operator right).completed d)
  | unread (f : Failure)
      (read : parseNumber p.left = .error f ∨ parseNumber k.display = .error f)
      (eq : k.complete p = k.fail f)
  | undefined (left right : Decimal) (f : Failure) (readLeft : parseNumber p.left = .ok left)
      (readRight : parseNumber k.display = .ok right)
      (applied : apply p.operator left right = .error f)
      (eq : k.complete p = (k.remembering p.operator right).fail f)

theorem completing (k : Keypad) (p : Pending) : Completing k p := by
  cases hleft : parseNumber p.left with
  | error f => exact .unread f (.inl hleft) (by rw [complete, hleft])
  | ok left =>
    cases hright : parseNumber k.display with
    | error f => exact .unread f (.inr hright) (by rw [complete, hleft, hright])
    | ok right =>
      cases happly : apply p.operator left right with
      | error f =>
        refine .undefined left right f hleft hright happly ?_
        rw [complete, hleft, hright]
        simp only [happly]
        rfl
      | ok d =>
        refine .shown left right d hleft hright happly ?_
        rw [complete, hleft, hright]
        simp only [happly]
        rfl

/-- A calculator on which an operator waits for its right operand. -/
def waiting (k : Keypad) (left : Decimal) (o : Operator) : Keypad :=
  { k with
    pending := some ⟨formatNumber left, o⟩
    result := left
    phase := .afterOperator
    lastOperator := some o }

/-- The ways of a display that is made a left operand. -/
inductive Awaiting (k : Keypad) (symbol : List Char) : Prop
  | waits (o : Operator) (left : Decimal) (known : symbol = [o.symbol])
      (read : parseNumber k.display = .ok left) (eq : k.await symbol = k.waiting left o)
  | unknown (f : Failure) (unknown : Operator.ofSymbol? symbol = none)
      (eq : k.await symbol = k.fail f)
  | unread (f : Failure) (read : parseNumber k.display = .error f) (eq : k.await symbol = k.fail f)

theorem awaiting (k : Keypad) (symbol : List Char) : Awaiting k symbol := by
  cases hsymbol : Operator.ofSymbol? symbol with
  | none => exact .unknown (.unknownOperator symbol) hsymbol (by rw [await, hsymbol])
  | some o =>
    cases hread : parseNumber k.display with
    | error f =>
      refine .unread f hread ?_
      rw [await, hsymbol]
      simp only [hread]
    | ok left =>
      refine .waits o left (ofSymbol?_eq_some_iff.mp hsymbol) hread ?_
      rw [await, hsymbol]
      simp only [hread]
      rfl

/-! ## The keys -/

theorem recovered_of_not_hasError (h : k.hasError = false) : k.recovered = k := by
  rw [recovered, h, if_neg Bool.false_ne_true]

theorem recovered_of_hasError (h : k.hasError = true) : k.recovered = fresh := by
  rw [recovered, if_pos h]

theorem hasError_fail (k : Keypad) (f : Failure) : (k.fail f).hasError = true :=
  rfl

/-- The ways of the equals key. -/
inductive Equalling (k : Keypad) : Prop
  | ignored (error : k.hasError = true) (eq : k.equals = k)
  | repeated (o : Operator) (error : k.hasError = false) (phase : k.phase = .afterEquals)
      (remembered : k.lastOperator = some o) (eq : k.equals = k.repeatEquals o)
  | taken (error : k.hasError = false) (pending : k.pending = none) (eq : k.equals = k.takeDisplay)
  | completed (p : Pending) (error : k.hasError = false) (pending : k.pending = some p)
      (eq : k.equals = k.complete p)

theorem equalling (k : Keypad) : Equalling k := by
  cases herror : k.hasError with
  | true => exact .ignored herror (by rw [equals, if_pos herror])
  | false =>
    have hnot : ¬ k.hasError = true := by simp [herror]
    by_cases hrepeats : k.phase = .afterEquals ∧ ∃ o, k.lastOperator = some o
    · obtain ⟨hphase, o, ho⟩ := hrepeats
      exact .repeated o herror hphase ho (by rw [equals, if_neg hnot, hphase, ho])
    · have hequals : k.equals = k.pending.elim k.takeDisplay k.complete := by
        rw [equals, if_neg hnot]
        cases hphase : k.phase with
        | editing | afterOperator => cases k.pending <;> rfl
        | afterEquals =>
          cases ho : k.lastOperator with
          | none => cases k.pending <;> rfl
          | some o => exact absurd ⟨hphase, o, ho⟩ hrepeats
      cases hpending : k.pending with
      | none => exact .taken herror hpending (by simp [hequals, hpending])
      | some p => exact .completed p herror hpending (by simp [hequals, hpending])

/-- The ways of an operator key, after a failure is forgotten. -/
inductive Operating (k : Keypad) (symbol : List Char) : Prop
  /-- There is nothing to compute, or only an operator to replace. -/
  | awaits (idle : k.recovered.pending = none ∨ k.recovered.phase = .afterOperator)
      (eq : k.operator symbol = k.recovered.await symbol)
  | failed (p : Pending) (pending : k.recovered.pending = some p)
      (phase : k.recovered.phase ≠ .afterOperator) (error : k.recovered.equals.hasError = true)
      (eq : k.operator symbol = k.recovered.equals)
  | completes (p : Pending) (pending : k.recovered.pending = some p)
      (phase : k.recovered.phase ≠ .afterOperator) (error : k.recovered.equals.hasError = false)
      (eq : k.operator symbol = k.recovered.equals.await symbol)

theorem operating (k : Keypad) (symbol : List Char) : Operating k symbol := by
  have hoperator : k.operator symbol =
      if k.recovered.pending.isSome && k.recovered.phase != .afterOperator then
        if k.recovered.equals.hasError then k.recovered.equals
        else k.recovered.equals.await symbol
      else k.recovered.await symbol := rfl
  cases hpending : k.recovered.pending with
  | none => exact .awaits (.inl hpending) (by rw [hoperator, hpending]; rfl)
  | some p =>
    by_cases hphase : k.recovered.phase = .afterOperator
    · exact .awaits (.inr hphase) (by rw [hoperator, hpending, hphase]; rfl)
    · have hcomputes : ((some p).isSome && k.recovered.phase != .afterOperator) = true := by
        simpa using hphase
      rw [hpending, if_pos hcomputes] at hoperator
      cases herror : k.recovered.equals.hasError with
      | true =>
        rw [if_pos herror] at hoperator
        exact .failed p hpending hphase herror hoperator
      | false =>
        rw [if_neg (by simp [herror])] at hoperator
        exact .completes p hpending hphase herror hoperator

/-! ## Which way a key takes -/

theorem equals_of_remembered (herror : k.hasError = false) (hphase : k.phase = .afterEquals)
    (hremembered : k.lastOperator = some o) : k.equals = k.repeatEquals o := by
  rw [equals, herror, if_neg Bool.false_ne_true, hphase, hremembered]

theorem equals_of_none (herror : k.hasError = false) (hphase : k.phase ≠ .afterEquals)
    (hpending : k.pending = none) : k.equals = k.takeDisplay := by
  cases equalling k with
  | ignored hfailed => cases herror.symm.trans hfailed
  | repeated _ _ hafter => exact absurd hafter hphase
  | taken _ _ eq => exact eq
  | completed _ _ hsome => cases hpending.symm.trans hsome

theorem equals_of_pending (herror : k.hasError = false) (hphase : k.phase ≠ .afterEquals)
    (hpending : k.pending = some p) : k.equals = k.complete p := by
  cases equalling k with
  | ignored hfailed => cases herror.symm.trans hfailed
  | repeated _ _ hafter => exact absurd hafter hphase
  | taken _ hnone => cases hpending.symm.trans hnone
  | completed _ _ hsome eq =>
    cases hpending.symm.trans hsome
    exact eq

theorem ne_afterEquals_of_editing (h : k.phase = .editing) : k.phase ≠ .afterEquals := by
  rw [h]
  decide

/-- With nothing to compute, an operator waits for its right operand at once. -/
theorem operator_of_idle (herror : k.hasError = false)
    (hidle : k.pending = none ∨ k.phase = .afterOperator) : k.operator symbol = k.await symbol := by
  have hrecovered := recovered_of_not_hasError herror
  cases operating k symbol with
  | awaits _ eq => rwa [hrecovered] at eq
  | failed p hsome hphase | completes p hsome hphase =>
    rw [hrecovered] at hsome hphase
    rcases hidle with hnone | hafter
    · cases hnone.symm.trans hsome
    · exact absurd hafter hphase

/-- What is pending is computed first. -/
theorem operator_of_pending (herror : k.hasError = false) (hphase : k.phase = .editing)
    (hpending : k.pending = some p) :
    k.operator symbol =
      if (k.complete p).hasError then k.complete p else (k.complete p).await symbol := by
  have hrecovered := recovered_of_not_hasError herror
  have hequals := equals_of_pending herror (ne_afterEquals_of_editing hphase) hpending
  cases operating k symbol with
  | awaits hidle =>
    rw [hrecovered, hpending, hphase] at hidle
    rcases hidle with hnone | hafter
    · cases hnone
    · cases hafter
  | failed _ _ _ hfailed eq =>
    rw [hrecovered, hequals] at hfailed eq
    rw [eq, if_pos hfailed]
  | completes _ _ _ hresult eq =>
    rw [hrecovered, hequals] at hresult eq
    rw [eq, hresult, if_neg Bool.false_ne_true]

end Cambio.Keypad
