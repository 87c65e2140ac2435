import Cambio.Proofs.Keypad.Step
import Cambio.Proofs.Keypad.Typing

/-!
# Chains of operations

Operands that are typed with operator keys between them are evaluated strictly from left to right:
each operator key completes the operation before it, and only the last of several operator keys
counts. The left operand is kept as a text, but as one that is read back to its value, so the result
is the fold of the operations over the values of the operands. The first operation without a result
shows its failure at the key that completes it.

## Main definitions

- `Keypad.Link` — operator keys and the operand after them
- `Keypad.chainValue?` — the value of a chain, `Keypad.chainKeys` the keys that enter it
- `Keypad.Enters` — an operand was typed, `Keypad.Awaits` — an operator waits for its right operand

## Main statements

- `Keypad.enters_chain` — what entering a chain leads to
- `Keypad.pressAll_chain` — the result of a chain, or the key at which it fails
-/

namespace Cambio.Keypad

/-- An operator key. -/
def Operator.key (o : Operator) : Key :=
  .operator [o.symbol]

/-- Operator keys and the operand typed after them. -/
structure Link where
  /-- The operator keys that were pressed before the last one. -/
  replaced : List Operator
  operator : Operator
  operand : Operand

namespace Link

variable (l : Link)

/-- The keys that enter a link. -/
def keys : List Key :=
  l.replaced.map Operator.key ++ l.operator.key :: l.operand.keys

/-- The first key of a link. -/
def firstKey : Key :=
  (l.replaced.headD l.operator).key

/-- The value of a chain with one link more. -/
def step? (v? : Option ℚ) : Option ℚ :=
  v?.bind fun u => l.operand.value?.bind fun x => l.operator.step? u x

end Link

/-- The keys that enter a chain. -/
def chainKeys (first : Operand) (links : List Link) : List Key :=
  first.keys ++ links.flatMap Link.keys

/-- The value of a chain, strictly from left to right. -/
def chainValue? (first : Operand) (links : List Link) : Option ℚ :=
  links.foldl (fun v? l => l.step? v?) first.value?

/-- The key that completes the last operation of `links`: the first key of the link after them, or
    equals. -/
def completingKey (links : List Link) (count : Nat) : Key :=
  match links[count]? with
  | some l => l.firstKey
  | none => .equals

/-! ## One operation -/

variable {k : Keypad} {v : ℚ} {v? : Option ℚ} {o : Operator} {p : Pending}

/-- The value of a pending operation with a right operand on display. -/
def Pending.value? (p : Pending) (display : List Char) : Option ℚ :=
  (valueOf? p.left).bind fun u => (valueOf? display).bind fun x => p.operator.step? u x

/-- The display shows a result of a value, or a failure if there is no value. -/
inductive Settles : Option ℚ → Keypad → Prop
  | value {k : Keypad} {v : ℚ} (error : k.hasError = false) (shown : valueOf? k.display = some v)
      (pending : k.pending = none) : Settles (some v) k
  | failure {k : Keypad} (error : k.hasError = true) : Settles none k

theorem settles_complete (herror : k.hasError = false) (p : Pending) :
    Settles (p.value? k.display) (k.complete p) := by
  have hleft := computes_parseNumber p.left
  have hright := computes_parseNumber k.display
  unfold Pending.value? complete
  -- The left operand is read before the right one; either may be no number of any value.
  generalize valueOf? p.left = u?, parseNumber p.left = left at hleft ⊢
  generalize valueOf? k.display = x?, parseNumber k.display = right at hright ⊢
  cases hleft with
  | failure => exact .failure (hasError_fail _ _)
  | value hleft =>
    cases hright with
    | failure => exact .failure (hasError_fail _ _)
    | value hright =>
      have hresult := computes_apply p.operator (Decimal.isFinite_of_isHeld hleft)
        (Decimal.isFinite_of_isHeld hright)
      simp only [Option.bind_some]
      revert hresult
      generalize Operator.step? _ _ _ = y?, apply _ _ _ = result
      intro hresult
      cases hresult with
      | failure => exact .failure (hasError_fail _ _)
      | value held =>
        refine .value ?_ ?_ rfl
        · exact herror
        · exact valueOf?_formatNumber held

theorem settles_takeDisplay (herror : k.hasError = false) (hpending : k.pending = none) :
    Settles (valueOf? k.display) k.takeDisplay := by
  have hshown := computes_parseNumber k.display
  unfold takeDisplay
  generalize hvalue : valueOf? k.display = x?, parseNumber k.display = r at hshown
  cases hshown with
  | failure => exact .failure (hasError_fail _ _)
  | value held =>
    refine .value ?_ hvalue hpending
    exact herror

/-! ## Operands and operators -/

/-- An operand was typed; with the operation that waits for it, it has a value or none. -/
structure Enters (k : Keypad) (v? : Option ℚ) : Prop where
  error : k.hasError = false
  phase : k.phase = .editing
  value : (match k.pending with
    | none => valueOf? k.display
    | some p => p.value? k.display) = v?

/-- An operator waits for its right operand, its left one is on display. -/
structure Awaits (k : Keypad) (v : ℚ) (o : Operator) : Prop where
  error : k.hasError = false
  phase : k.phase = .afterOperator
  shown : valueOf? k.display = some v
  pending : ∃ left, k.pending = some ⟨left, o⟩ ∧ valueOf? left = some v

theorem settles_equals (h : Enters k v?) : Settles v? k.equals := by
  have hvalue := h.value
  have hphase := ne_afterEquals_of_editing h.phase
  cases hpending : k.pending with
  | none =>
    rw [hpending] at hvalue
    rw [equals_of_none h.error hphase hpending]
    exact hvalue ▸ settles_takeDisplay h.error hpending
  | some p =>
    rw [hpending] at hvalue
    rw [equals_of_pending h.error hphase hpending]
    exact hvalue ▸ settles_complete h.error p

theorem awaits_await (herror : k.hasError = false) (hshown : valueOf? k.display = some v)
    (o : Operator) : Awaits (k.await [o.symbol]) v o := by
  obtain ⟨d, hparse, hd⟩ := valueOf?_eq_some_iff.mp hshown
  rw [await, ofSymbol?_symbol]
  dsimp only
  rw [hparse]
  exact ⟨herror, rfl, hshown, formatNumber d, rfl,
    hd ▸ valueOf?_formatNumber (isHeld_of_parseNumber hparse)⟩

theorem hasError_await (hshown : valueOf? k.display = none) (o : Operator) :
    (k.await [o.symbol]).hasError = true := by
  have hcomputes := hshown ▸ computes_parseNumber k.display
  rw [await, ofSymbol?_symbol]
  dsimp only
  generalize parseNumber k.display = r at hcomputes
  cases hcomputes
  rfl

/-- An operator key completes the operation before it and waits for the next operand. -/
theorem press_operator_of_enters (h : Enters k v?) (o : Operator) :
    (∀ v, v? = some v → Awaits (k.press o.key) v o) ∧
      (v? = none → (k.press o.key).hasError = true) := by
  have hvalue := h.value
  show (∀ v, v? = some v → Awaits (k.operator [o.symbol]) v o) ∧
    (v? = none → (k.operator [o.symbol]).hasError = true)
  cases hpending : k.pending with
  | none =>
    rw [hpending] at hvalue
    rw [operator_of_idle h.error (.inl hpending)]
    constructor
    · intro v hv
      exact awaits_await h.error (hvalue.trans hv) o
    · intro hv
      exact hasError_await (hvalue.trans hv) o
  | some p =>
    rw [hpending] at hvalue
    have hsettles : Settles v? (k.complete p) := hvalue ▸ settles_complete h.error p
    rw [operator_of_pending h.error h.phase hpending]
    constructor
    · rintro v rfl
      cases hsettles with
      | value herror hshown =>
        rw [herror, if_neg Bool.false_ne_true]
        exact awaits_await herror hshown o
    · rintro rfl
      cases hsettles with
      | failure herror =>
        rw [if_pos herror]
        exact herror

/-- A second operator key replaces the operator that waits. -/
theorem press_operator_of_awaits (h : Awaits k v o) (o' : Operator) :
    Awaits (k.press o'.key) v o' := by
  show Awaits (k.operator [o'.symbol]) v o'
  rw [operator_of_idle h.error (.inr h.phase)]
  exact awaits_await h.error h.shown o'

theorem pressAll_operators_of_awaits (h : Awaits k v o) (os : List Operator) (last : Operator) :
    Awaits (k.pressAll (os.map Operator.key ++ [last.key])) v last := by
  induction os generalizing k o with
  | nil => exact press_operator_of_awaits h last
  | cons o' os ih => exact ih (press_operator_of_awaits h o')

/-- Of several operator keys the last one counts. -/
theorem pressAll_operators_of_enters (h : Enters k (some v)) (os : List Operator)
    (last : Operator) : Awaits (k.pressAll (os.map Operator.key ++ [last.key])) v last := by
  cases os with
  | nil => exact (press_operator_of_enters h last).1 v rfl
  | cons o os => exact pressAll_operators_of_awaits ((press_operator_of_enters h o).1 v rfl) os last

/-- The operand after an operator is the right one of its operation. -/
theorem enters_of_awaits (h : Awaits k v o) (t : Operand) :
    Enters (k.pressAll t.keys) (t.value?.bind fun x => o.step? v x) := by
  have hphase : k.phase ≠ .editing := by
    rw [h.phase]
    decide
  obtain ⟨shown, hpress, htyped⟩ :=
    pressAll_entryKeys h.error (.inr ⟨hphase, rfl⟩) t.digit_or_point t.ne_nil
  obtain ⟨left, hpending, hleft⟩ := h.pending
  rw [Operand.keys, hpress]
  refine ⟨h.error, rfl, ?_⟩
  dsimp only
  rw [hpending]
  dsimp only
  rw [Pending.value?, hleft, valueOf?_of_isTyped htyped]
  rfl

/-! ## Chains -/

theorem enters_first (k : Keypad) (t : Operand) :
    Enters (k.pressAll (.clear :: t.keys)) t.value? := by
  obtain ⟨shown, hpress, htyped⟩ := pressAll_entryKeys (k := fresh) rfl
    (.inl ⟨rfl, isTyped_blankDisplay⟩) t.digit_or_point t.ne_nil
  show Enters (fresh.pressAll t.keys) t.value?
  rw [Operand.keys, hpress]
  exact ⟨rfl, rfl, valueOf?_of_isTyped htyped⟩

theorem enters_link (h : Enters k (some v)) (l : Link) :
    Enters (k.pressAll l.keys) (l.step? (some v)) := by
  have hsplit : l.keys = (l.replaced.map Operator.key ++ [l.operator.key]) ++ l.operand.keys := by
    rw [Link.keys, List.append_assoc]
    rfl
  rw [hsplit, pressAll_append]
  exact enters_of_awaits (pressAll_operators_of_enters h l.replaced l.operator) l.operand

theorem chainValue?_append (first : Operand) (links : List Link) (l : Link) :
    chainValue? first (links ++ [l]) = l.step? (chainValue? first links) := by
  rw [chainValue?, List.foldl_append]
  rfl

theorem chainKeys_append (first : Operand) (links : List Link) (l : Link) :
    chainKeys first (links ++ [l]) = chainKeys first links ++ l.keys := by
  rw [chainKeys, List.flatMap_append, ← List.append_assoc, List.flatMap_singleton]
  rfl

/-- Entering a chain of which all operations but the last have results. -/
theorem enters_chain (k : Keypad) (first : Operand) (links : List Link)
    (hdefined : ∀ count < links.length, (chainValue? first (links.take count)).isSome = true) :
    Enters (k.pressAll (.clear :: chainKeys first links)) (chainValue? first links) := by
  induction links using List.reverseRecOn with
  | nil => simpa [chainKeys, chainValue?] using enters_first k first
  | append_singleton links l ih =>
    -- Only the operation of the last link is still under way.
    have hall : ∀ count ≤ links.length, (chainValue? first (links.take count)).isSome = true := by
      intro count hcount
      have h := hdefined count (by simp; omega)
      rwa [List.take_append_of_le_length hcount] at h
    have hlast := hall links.length (Nat.le_refl _)
    rw [List.take_length, Option.isSome_iff_exists] at hlast
    obtain ⟨v, hv⟩ := hlast
    have henters := ih fun count hcount => hall count hcount.le
    rw [hv] at henters
    rw [chainValue?_append, hv, chainKeys_append, ← List.cons_append, pressAll_append]
    exact enters_link henters l

theorem isSome_chainValue?_take {first : Operand} {links : List Link}
    (h : (chainValue? first links).isSome = true) (count : Nat) :
    (chainValue? first (links.take count)).isSome = true := by
  induction links using List.reverseRecOn with
  | nil => simpa using h
  | append_singleton links l ih =>
    by_cases hcount : count ≤ links.length
    · rw [List.take_append_of_le_length hcount]
      apply ih
      rw [chainValue?_append, Link.step?] at h
      cases hv : chainValue? first links with
      | none => rw [hv] at h; cases h
      | some v => rfl
    · rwa [List.take_of_length_le (by simp; omega)]

theorem firstKey_cons_isPrefix (l : Link) (keys : List Key) : [l.firstKey] <+: l.keys ++ keys := by
  unfold Link.firstKey Link.keys
  cases l.replaced with
  | nil => exact ⟨_, rfl⟩
  | cons o os => exact ⟨_, rfl⟩

/-- The key that completes an operation is the next one after the operation is entered. -/
theorem completingKey_isPrefix (first : Operand) (links : List Link) (count : Nat) :
    chainKeys first (links.take count) ++ [completingKey links count] <+:
      chainKeys first links ++ [.equals] := by
  have hsplit : chainKeys first links =
      chainKeys first (links.take count) ++ (links.drop count).flatMap Link.keys := by
    rw [chainKeys, chainKeys, List.append_assoc, ← List.flatMap_append, List.take_append_drop]
  rw [hsplit, List.append_assoc, List.prefix_append_right_inj, completingKey,
    ← Nat.add_zero count, ← List.getElem?_drop, Nat.add_zero]
  cases links.drop count with
  | nil => exact List.prefix_refl _
  | cons l rest =>
    rw [List.flatMap_cons, List.append_assoc]
    exact firstKey_cons_isPrefix l _

/-- **A chain is evaluated strictly from left to right.** If every operation has a result, equals
    shows the value of the chain; the first operation without a result fails at the key that
    completes it, and nothing fails before. -/
theorem pressAll_chain (k : Keypad) (first : Operand) (links : List Link) :
    (∀ v, chainValue? first links = some v →
      let shown := k.pressAll (.clear :: chainKeys first links ++ [.equals])
      shown.hasError = false ∧ ∃ d, parseNumber shown.display = .ok d ∧ d.value = v) ∧
    ∀ count ≤ links.length, chainValue? first (links.take count) = none →
      (∀ fewer < count, (chainValue? first (links.take fewer)).isSome = true) →
      let entered := k.pressAll (.clear :: chainKeys first (links.take count))
      chainKeys first (links.take count) ++ [completingKey links count] <+:
          chainKeys first links ++ [.equals] ∧
        entered.hasError = false ∧
        (entered.press (completingKey links count)).status = .error := by
  constructor
  · intro v hv
    have henters := enters_chain k first links fun count _ =>
      isSome_chainValue?_take (by rw [hv]; rfl) count
    have hsettles := settles_equals (hv ▸ henters)
    rw [pressAll_append]
    cases hsettles with
    | value herror hshown => exact ⟨herror, valueOf?_eq_some_iff.mp hshown⟩
  · intro count hcount hnone hbefore
    have henters := enters_chain k first (links.take count) fun fewer hfewer => by
      rw [List.length_take, Nat.min_eq_left hcount] at hfewer
      rw [List.take_take, Nat.min_eq_left hfewer.le]
      exact hbefore fewer hfewer
    rw [hnone] at henters
    refine ⟨completingKey_isPrefix first links count, henters.error, ?_⟩
    have hfailed : ((k.pressAll (.clear :: chainKeys first (links.take count))).press
        (completingKey links count)).hasError = true := by
      unfold completingKey
      split
      -- The key is the first one of the next link, or equals after the last.
      · exact (press_operator_of_enters henters _).2 rfl
      · have hsettles := settles_equals henters
        cases hsettles with
        | failure herror => exact herror
    rw [status, hfailed]
    rfl

/-- An operand of one digit. -/
def Operand.ofDigit (c : Char) (h : Decimal.isBasicDigit c = true) : Operand where
  chars := [c]
  ne_nil := List.cons_ne_nil _ _
  digit_or_point := by simp [h]

/-- Links that follow an operand: plus replaced by a division by three, a product with three and a
    division by nought. -/
def thirds : List Link :=
  [⟨[.plus], .slash, .ofDigit '3' rfl⟩, ⟨[], .times, .ofDigit '3' rfl⟩,
    ⟨[], .obelus, .ofDigit '0' rfl⟩]

/-- A third of one, times three, is 28 nines; the division by nought fails at equals. -/
theorem pressAll_chain_thirds :
    (∃ d, parseNumber (fresh.pressAll
          (.clear :: chainKeys (.ofDigit '1' rfl) (thirds.take 2) ++ [.equals])).display = .ok d ∧
        d.value = 1 - 1 / 10 ^ 28) ∧
      ((fresh.pressAll (.clear :: chainKeys (.ofDigit '1' rfl) thirds)).press .equals).status =
        .error := by
  have hvalue : chainValue? (.ofDigit '1' rfl) (thirds.take 2) = some (1 - 1 / 10 ^ 28) := by
    decide +kernel
  have hnone : chainValue? (.ofDigit '1' rfl) (thirds.take 3) = none := by
    decide +kernel
  have hbefore : ∀ fewer < 3,
      (chainValue? (.ofDigit '1' rfl) (thirds.take fewer)).isSome = true := by
    decide +kernel
  refine ⟨((pressAll_chain fresh _ _).1 _ hvalue).2, ?_⟩
  exact ((pressAll_chain fresh _ thirds).2 3 (by decide) hnone hbefore).2.2

end Cambio.Keypad
