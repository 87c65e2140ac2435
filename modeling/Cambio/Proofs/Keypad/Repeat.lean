import Cambio.Proofs.Decimal.Accuracy
import Cambio.Proofs.Keypad.Chain
import Cambio.Proofs.Keypad.Consistency

/-!
# Going on from a result

After a result, equals applies the last operation once more, with the operator and the right operand
of the first time. Sign, percent and backspace may come in between: they change the value on display
or leave it, and what is remembered stays. So any number of these keys is told by one function of
the value, up to a result that is too large.

## Main definitions

- `Keypad.Followup` — a key that goes on from a result
- `Keypad.followed?` — the value after some of them
- `Keypad.Repeats` — a result on display, with the operation that equals repeats
- `Keypad.RepeatRules` — what these keys do from there, in values only

## Main statements

- `Keypad.Repeats.press` — what one key does
- `Keypad.Repeats.pressAll` — what any number of keys does
- `Keypad.repeatRules_pressAll` — going on from every result of a pending operation
- `Keypad.not_hundredth_of_tiny` — a percentage is not always exactly a hundredth
-/

namespace Cambio.Keypad

open Decimal (Numeral)

variable {k : Keypad} {o : Operator} {p : Pending} {b u v x y : ℚ}

/-! ## Readings and calculations with a value -/

theorem Computes.eq_some {v? : Option ℚ} {d : Decimal} (h : Computes v? (.ok d)) :
    v? = some d.value := by
  cases h
  rfl

theorem Computes.eq_none {v? : Option ℚ} {f : Failure} (h : Computes v? (.error f)) :
    v? = none := by
  cases h
  rfl

theorem isHeld_negated {d : Decimal} (h : d.IsHeld) : d.negated.IsHeld := by
  obtain ⟨negative, c, e, rfl⟩ := Decimal.eq_finite_of_isFinite (Decimal.isFinite_of_isHeld h)
  exact h

/-- A numeral with the other sign shows the opposite value. -/
theorem valueOf?_otherSign {shown : List Char} {bared : Prop} (hnumeral : ShowsNumeral shown bared)
    (h : valueOf? shown = some x) : valueOf? (Numeral.otherSign shown) = some (-x) := by
  obtain ⟨n, rfl, -⟩ := hnumeral
  obtain ⟨d, hread, rfl⟩ := valueOf?_eq_some_iff.mp h
  have hheld := isHeld_of_parseNumber hread
  obtain ⟨hparse, -⟩ := parseNumber_eq_ok_iff.mp hread
  rw [n.parse_text, Numeral.read] at hparse
  split at hparse
  · cases hparse
  · next hdigits =>
    obtain ⟨rfl, -⟩ := Decimal.bounded_eq_ok_iff.mp hparse
    have hopposite : Decimal.parse n.opposite.text =
        .ok (Decimal.finite n.negative (Decimal.digitsValue 0 n.digits) (-n.places)).negated := by
      rw [n.opposite.parse_text, Numeral.read]
      exact (if_neg hdigits).trans (Decimal.bounded_eq_ok_iff.mpr ⟨rfl, isHeld_negated hheld⟩)
    rw [← n.text_opposite]
    exact valueOf?_eq_some_iff.mpr ⟨_, parseNumber_eq_ok_iff.mpr ⟨hopposite, rfl⟩,
      Decimal.value_negated _⟩

theorem valueOf?_blankDisplay : valueOf? blankDisplay = some 0 := by
  decide +kernel

/-! ## Values of results -/

/-- A value that a result has: it is kept as it is, and it is not too large. -/
structure IsResult (x : ℚ) : Prop where
  kept : Decimal.nearest x = x
  small : |x| < Decimal.tooLarge

theorem step?_eq_some_iff : o.step? u x = some v ↔
    ∃ q, o.unrounded? u x = some q ∧ Decimal.nearest q = v ∧ |v| < Decimal.tooLarge := by
  rw [Operator.step?, Option.filter_eq_some_iff, Option.map_eq_some_iff]
  simp only [decide_eq_true_eq]
  constructor
  · rintro ⟨⟨q, hq, hv⟩, hsmall⟩
    exact ⟨q, hq, hv, hsmall⟩
  · rintro ⟨q, hq, hv, hsmall⟩
    exact ⟨⟨q, hq, hv⟩, hsmall⟩

theorem isResult_of_step? (h : o.step? u x = some v) : IsResult v := by
  obtain ⟨q, -, rfl, hsmall⟩ := step?_eq_some_iff.mp h
  exact ⟨Decimal.nearest_nearest q, hsmall⟩

theorem IsResult.neg (h : IsResult x) : IsResult (-x) := by
  refine ⟨?_, ?_⟩
  · rw [Decimal.nearest_neg, h.kept]
  · rw [abs_neg]
    exact h.small

theorem IsResult.abs_nearest_div_lt (h : IsResult x) :
    |Decimal.nearest (x / 100)| < Decimal.tooLarge := by
  refine Decimal.abs_nearest_lt ?_
  have hsmall := h.small
  have hlarge := Decimal.tooLarge_pos
  rw [abs_div, abs_of_pos (by norm_num : (0 : ℚ) < 100)]
  generalize Decimal.tooLarge = large at hsmall hlarge ⊢
  linarith

theorem IsResult.nearest_div (h : IsResult x) : IsResult (Decimal.nearest (x / 100)) :=
  ⟨Decimal.nearest_nearest _, h.abs_nearest_div_lt⟩

/-- A hundredth of a result is kept as it is, unless it loses digits at the low end of the range. -/
theorem IsResult.nearest_div_eq (h : IsResult x)
    (hlow : x = 0 ∨ 10 ^ Decimal.minExponent ≤ |x / 100|) :
    Decimal.nearest (x / 100) = x / 100 := by
  have hpow : x / 100 = x * 10 ^ (-2 : ℤ) := by
    rw [div_eq_mul_inv]
    norm_num
  rcases hlow with rfl | hlow
  · rw [zero_div, Decimal.nearest_zero]
  · rw [hpow] at hlow ⊢
    exact Decimal.nearest_mul_zpow h.kept hlow

/-- Whether an operation has an exact result does not depend on its left operand. -/
theorem exists_unrounded (h : o.unrounded? u x = some v) (w : ℚ) :
    ∃ q, o.unrounded? w x = some q := by
  cases o with
  | plus | minus | asterisk | times => exact ⟨_, rfl⟩
  | slash | obelus =>
    rw [Operator.unrounded?] at h ⊢
    split_ifs at h ⊢ with hzero
    exact ⟨_, rfl⟩

/-! ## The keys -/

/-- A key that goes on from a result. -/
inductive Followup where
  | equals
  | sign
  | percent
  | backspace
  deriving DecidableEq, Repr

namespace Followup

/-- The key. -/
def key : Followup → Key
  | .equals => .equals
  | .sign => .sign
  | .percent => .percent
  | .backspace => .backspace

/-- The value one key later, if it is not too large. Equals applies an operator with a right
    operand. -/
def step? (o : Operator) (b : ℚ) : Followup → ℚ → Option ℚ
  | .equals, x => o.step? x b
  | .sign, x => some (-x)
  | .percent, x => some (Decimal.nearest (x / 100))
  | .backspace, x => some x

end Followup

/-- The value after some keys. -/
def followed? (o : Operator) (b : ℚ) (keys : List Followup) (x : ℚ) : Option ℚ :=
  keys.foldlM (fun y key => key.step? o b y) x

/-- A result is on display, and equals would apply an operator with a right operand to it. -/
structure Repeats (k : Keypad) (o : Operator) (b x : ℚ) : Prop where
  error : k.hasError = false
  phase : k.phase = .afterEquals
  pending : k.pending = none
  operator : k.lastOperator = some o
  operand : k.lastOperand.isFinite = true ∧ k.lastOperand.value = b
  numeral : ShowsNumeral k.display False
  shown : valueOf? k.display = some x
  result : IsResult x

/-- A number is put on display. -/
theorem Repeats.show (h : Repeats k o b x) {d : Decimal} (hheld : d.IsHeld)
    (hresult : IsResult d.value) :
    Repeats { k with display := formatNumber d } o b d.value := by
  have hshown := valueOf?_formatNumber hheld
  exact { h with numeral := showsNumeral_formatNumber hheld, shown := hshown, result := hresult }

theorem Repeats.press_sign (h : Repeats k o b x) : Repeats (k.press .sign) o b (-x) := by
  show Repeats k.sign o b (-x)
  rw [sign_of_not_hasError h.error]
  split
  · next hblank =>
    have hzero : x = 0 := by
      have hshown := h.shown
      rw [hblank, valueOf?_blankDisplay] at hshown
      exact (Option.some.inj hshown).symm
    rw [hzero, neg_zero]
    exact hzero ▸ h
  · have hshown := valueOf?_otherSign h.numeral h.shown
    exact { h with
      numeral := showsNumeral_sign h.numeral
      shown := hshown
      result := h.result.neg }

/-- Without a pending operation the percentage of a value is a hundredth of it. -/
theorem exists_percentage (hpending : k.pending = none) (hshown : valueOf? k.display = some x)
    (hrange : |Decimal.nearest (x / 100)| < Decimal.tooLarge) :
    ∃ d, k.percentage = .ok d ∧ d.IsHeld ∧ d.value = Decimal.nearest (x / 100) := by
  obtain ⟨value, hread, rfl⟩ := valueOf?_eq_some_iff.mp hshown
  have hfinite := isFinite_of_parseNumber hread
  have hrounds := Decimal.rounds_div hfinite (b := hundred) rfl rfl
  have hhundred : hundred.value = 100 := by decide +kernel
  rw [hhundred] at hrounds
  unfold percentage
  rw [hread, hpending]
  dsimp only
  generalize value.div hundred = quotient at hrounds
  cases hrounds with
  | ok held hvalue _ => exact ⟨_, rfl, held, hvalue⟩
  | overflow hlarge => exact absurd hrange (not_lt.mpr hlarge)

theorem percent_of_percentage (herror : k.hasError = false) {d : Decimal}
    (h : k.percentage = .ok d) : k.percent = { k with display := formatNumber d } := by
  rw [percent, herror, if_neg Bool.false_ne_true, h]

theorem Repeats.press_percent (h : Repeats k o b x) :
    Repeats (k.press .percent) o b (Decimal.nearest (x / 100)) := by
  obtain ⟨d, hpercentage, hheld, hvalue⟩ :=
    exists_percentage h.pending h.shown h.result.abs_nearest_div_lt
  show Repeats k.percent o b _
  rw [percent_of_percentage h.error hpercentage, ← hvalue]
  exact h.show hheld (hvalue ▸ h.result.nearest_div)

theorem Repeats.press_backspace (h : Repeats k o b x) : Repeats (k.press .backspace) o b x := by
  show Repeats k.backspace o b x
  rw [backspace, h.error, if_neg Bool.false_ne_true, h.phase]
  exact h

/-- Equals applies the operation once more, or fails if there is no result. -/
theorem Repeats.press_equals (h : Repeats k o b x) :
    (∀ y, o.step? x b = some y → Repeats (k.press .equals) o b y) ∧
      (o.step? x b = none → (k.press .equals).hasError = true) := by
  obtain ⟨hfinite, hvalue⟩ := h.operand
  obtain ⟨d, hread, hd⟩ := valueOf?_eq_some_iff.mp h.shown
  have hcomputes := computes_apply o (isFinite_of_parseNumber hread) hfinite
  rw [hd, hvalue] at hcomputes
  show (∀ y, o.step? x b = some y → Repeats k.equals o b y) ∧
    (o.step? x b = none → k.equals.hasError = true)
  rw [equals_of_remembered h.error h.phase h.operator]
  cases repeating k o with
  | shown x' result read applied eq =>
    cases hread.symm.trans read
    rw [applied] at hcomputes
    rw [eq, hcomputes.eq_some]
    refine ⟨fun y hy => ?_, nofun⟩
    cases hy
    have hresult := h.show hcomputes.isHeld (isResult_of_step? hcomputes.eq_some)
    exact { hresult with }
  | unread f read => cases hread.symm.trans read
  | undefined x' f read applied eq =>
    cases hread.symm.trans read
    rw [applied] at hcomputes
    rw [eq, hcomputes.eq_none]
    exact ⟨nofun, fun _ => rfl⟩

/-- A key leads to the value that it has one key later, and only equals may fail. -/
theorem Repeats.press (h : Repeats k o b x) (key : Followup) :
    (∀ y, key.step? o b x = some y → Repeats (k.press key.key) o b y) ∧
      (key.step? o b x = none → (k.press key.key).hasError = true) := by
  cases key with
  | equals => exact h.press_equals
  | sign =>
    refine ⟨fun y hy => ?_, nofun⟩
    cases hy
    exact h.press_sign
  | percent =>
    refine ⟨fun y hy => ?_, nofun⟩
    cases hy
    exact h.press_percent
  | backspace =>
    refine ⟨fun y hy => ?_, nofun⟩
    cases hy
    exact h.press_backspace

/-! ## Any number of keys -/

theorem Repeats.pressAll (h : Repeats k o b x) {keys : List Followup}
    (hvalue : followed? o b keys x = some y) :
    Repeats (k.pressAll (keys.map Followup.key)) o b y := by
  induction keys generalizing k x with
  | nil =>
    cases hvalue
    exact h
  | cons key keys ih =>
    rw [followed?, List.foldlM_cons] at hvalue
    obtain ⟨z, hz, hrest⟩ := Option.bind_eq_some_iff.mp hvalue
    exact ih ((h.press key).1 z hz) hrest

/-- Without a value at the end, equals had no result at some point before. -/
theorem exists_of_followed?_eq_none {keys : List Followup} (hnone : followed? o b keys x = none) :
    ∃ before after y, keys = before ++ .equals :: after ∧ followed? o b before x = some y ∧
      o.step? y b = none := by
  induction keys generalizing x with
  | nil => cases hnone
  | cons key keys ih =>
    rw [followed?, List.foldlM_cons] at hnone
    cases hkey : key.step? o b x with
    | none =>
      -- only equals may have no value
      cases key with
      | equals => exact ⟨[], keys, x, rfl, rfl, hkey⟩
      | sign | percent | backspace => cases hkey
    | some z =>
      rw [hkey] at hnone
      obtain ⟨before, after, y, rfl, hbefore, hfails⟩ := ih hnone
      refine ⟨key :: before, after, y, rfl, ?_, hfails⟩
      rw [followed?, List.foldlM_cons, hkey]
      exact hbefore

theorem pressAll_equals_of_hasError (herror : k.hasError = true) (count : Nat) :
    k.pressAll (List.replicate count .equals) = k := by
  induction count with
  | zero => rfl
  | succ count ih =>
    have hsame : k.press .equals = k := by
      show k.equals = k
      rw [equals, if_pos herror]
    rw [List.replicate_succ, pressAll_cons, hsame, ih]

/-- Going on from a result, with the operation that equals repeats. -/
structure RepeatRules (k : Keypad) (o : Operator) (b v : ℚ) : Prop where
  /-- Each key does to the value on display what it does to a value. -/
  value (keys : List Followup) (x : ℚ) (h : followed? o b keys v = some x) :
    (k.pressAll (keys.map Followup.key)).hasError = false ∧
      valueOf? (k.pressAll (keys.map Followup.key)).display = some x
  /-- The first result that is too large is a failure, and equals does not leave it. -/
  failure (keys : List Followup) (h : followed? o b keys v = none) :
    ∃ before after x q, keys = before ++ .equals :: after ∧ followed? o b before v = some x ∧
      o.unrounded? x b = some q ∧ Decimal.tooLarge ≤ |Decimal.nearest q| ∧
      let failed := (k.pressAll (before.map Followup.key)).press .equals
      failed.status = .error ∧ ∀ count, failed.pressAll (List.replicate count .equals) = failed
  /-- A hundredth is exact, unless it loses digits at the low end of the range. -/
  hundredth (keys : List Followup) (x : ℚ) (h : followed? o b keys v = some x)
    (hlow : x = 0 ∨ 10 ^ Decimal.minExponent ≤ |x / 100|) : Decimal.nearest (x / 100) = x / 100

theorem Repeats.repeatRules (h : Repeats k o b v) (hstep : o.step? u b = some v) :
    RepeatRules k o b v where
  value keys x hx := ⟨(h.pressAll hx).error, (h.pressAll hx).shown⟩
  failure keys hnone := by
    obtain ⟨before, after, x, rfl, hbefore, hfails⟩ := exists_of_followed?_eq_none hnone
    obtain ⟨r, hr, -⟩ := step?_eq_some_iff.mp hstep
    obtain ⟨q, hq⟩ := exists_unrounded hr x
    have hlarge : Decimal.tooLarge ≤ |Decimal.nearest q| := by
      by_contra hsmall
      have hresult := step?_eq_some_iff.mpr ⟨q, hq, rfl, not_le.mp hsmall⟩
      cases hresult.symm.trans hfails
    have herror : ((k.pressAll (before.map Followup.key)).press .equals).hasError = true :=
      (h.pressAll hbefore).press_equals.2 hfails
    exact ⟨before, after, x, q, rfl, hbefore, hq, hlarge, if_pos herror,
      pressAll_equals_of_hasError herror⟩
  hundredth keys x hx hlow := (h.pressAll hx).result.nearest_div_eq hlow

/-! ## Results of pending operations -/

/-- A pending operation that has a result, as the operation that equals repeats. -/
theorem exists_repeats (herror : k.hasError = false) (hphase : k.phase ≠ .afterEquals)
    (hpending : k.pending = some p) (hresult : (k.press .equals).hasError = false) :
    ∃ left right v, parseNumber p.left = .ok left ∧ parseNumber k.display = .ok right ∧
      p.operator.step? left.value right.value = some v ∧
      Repeats (k.press .equals) p.operator right.value v := by
  have hequals : k.press .equals = k.complete p := equals_of_pending herror hphase hpending
  rw [hequals] at hresult ⊢
  cases completing k p with
  | shown left right d readLeft readRight applied eq =>
    have hfinite := isFinite_of_parseNumber readRight
    have hcomputes := computes_apply p.operator (isFinite_of_parseNumber readLeft) hfinite
    rw [applied] at hcomputes
    have hheld := hcomputes.isHeld
    have hshown := valueOf?_formatNumber hheld
    refine ⟨left, right, _, readLeft, readRight, hcomputes.eq_some, ?_⟩
    rw [eq]
    exact
      { error := herror
        phase := rfl
        pending := rfl
        operator := rfl
        operand := ⟨hfinite, rfl⟩
        numeral := showsNumeral_formatNumber hheld
        shown := hshown
        result := isResult_of_step? hcomputes.eq_some }
  | unread f _ eq | undefined _ _ f _ _ _ eq =>
    rw [eq] at hresult
    cases hresult

/-- **Going on from a result**: after any keys that leave an operation pending, if equals shows its
    result, the keys that go on from there are told by the values alone. -/
theorem repeatRules_pressAll (keys : List Key) (p : Pending)
    (herror : (fresh.pressAll keys).hasError = false)
    (hpending : (fresh.pressAll keys).pending = some p)
    (hresult : ((fresh.pressAll keys).press .equals).hasError = false) :
    ∃ left right v, parseNumber p.left = .ok left ∧
      parseNumber (fresh.pressAll keys).display = .ok right ∧
      p.operator.step? left.value right.value = some v ∧
      valueOf? ((fresh.pressAll keys).press .equals).display = some v ∧
      RepeatRules ((fresh.pressAll keys).press .equals) p.operator right.value v := by
  have hphase : (fresh.pressAll keys).phase ≠ .afterEquals := by
    intro hafter
    cases hpending.symm.trans ((IsSound.fresh.pressAll keys).afterEquals hafter).1
  obtain ⟨left, right, v, hleft, hright, hstep, hrepeats⟩ :=
    exists_repeats herror hphase hpending hresult
  exact ⟨left, right, v, hleft, hright, hstep, hrepeats.shown, hrepeats.repeatRules hstep⟩

/-- Five plus three is eight, and equals adds three to whatever is made of that. -/
theorem repeatRules_pressAll_sum :
    RepeatRules ((fresh.pressAll [.digit ['5'], .operator ['+'], .digit ['3']]).press .equals)
        .plus 3 8 ∧
      followed? .plus 3 [.equals, .sign, .backspace, .percent, .equals] 8 = some (289 / 100) := by
  obtain ⟨left, right, v, hleft, hright, hstep, -, hrules⟩ :=
    repeatRules_pressAll [.digit ['5'], .operator ['+'], .digit ['3']] ⟨['5'], .plus⟩
      (by decide +kernel) (by decide +kernel) (by decide +kernel)
  have hfive : parseNumber ['5'] = .ok (.ofNat 5) := by decide +kernel
  have hthree : parseNumber (fresh.pressAll
      [.digit ['5'], .operator ['+'], .digit ['3']]).display = .ok (.ofNat 3) := by decide +kernel
  have hsum : Operator.plus.step? (Decimal.ofNat 5).value (Decimal.ofNat 3).value = some 8 := by
    decide +kernel
  cases hfive.symm.trans hleft
  cases hthree.symm.trans hright
  cases hsum.symm.trans hstep
  have hvalue : (Decimal.ofNat 3).value = 3 := by decide +kernel
  exact ⟨hvalue ▸ hrules, by decide +kernel⟩

/-! ## The low end of the range -/

/-- The keys that square what is on display. -/
def squareKeys : List Key :=
  [Operator.asterisk.key, .equals]

theorem awaits_of_settles (h : Settles (some v) k) (o : Operator) : Awaits (k.press o.key) v o := by
  cases h with
  | value herror hshown hpending =>
    show Awaits (k.operator [o.symbol]) v o
    rw [operator_of_idle herror (.inl hpending)]
    exact awaits_await herror hshown o

theorem awaits_pressAll_of_settles (h : Settles (some v) k) (o : Operator) :
    Awaits (k.pressAll [o.key]) v o :=
  awaits_of_settles h o

/-- Right after an operator its left operand is the right one too. -/
theorem settles_of_awaits (h : Awaits k v o) : Settles (o.step? v v) (k.press .equals) := by
  obtain ⟨left, hpending, hleft⟩ := h.pending
  have hphase : k.phase ≠ .afterEquals := by
    rw [h.phase]
    decide
  have hsettles := settles_complete h.error ⟨left, o⟩
  rw [Pending.value?, hleft, h.shown, ← equals_of_pending h.error hphase hpending] at hsettles
  exact hsettles

theorem settles_percent (h : Settles (some v) k)
    (hrange : |Decimal.nearest (v / 100)| < Decimal.tooLarge) :
    Settles (some (Decimal.nearest (v / 100))) (k.press .percent) := by
  cases h with
  | value herror hshown hpending =>
    obtain ⟨d, hpercentage, hheld, hvalue⟩ := exists_percentage hpending hshown hrange
    show Settles _ k.percent
    rw [percent_of_percentage herror hpercentage, ← hvalue]
    exact .value herror (valueOf?_formatNumber hheld) hpending

/-- A power of one hundredth. -/
def hundredths (n : Nat) : ℚ :=
  (1 / 100) ^ n

theorem hundredths_eq (n : Nat) : hundredths n = 10 ^ (-(2 * n : ℤ)) := by
  rw [hundredths, zpow_neg, zpow_mul, zpow_natCast, ← inv_pow]
  norm_num

theorem nearest_hundredths {n : Nat} (hn : 2 * n ≤ 1000026) :
    Decimal.nearest (hundredths n) = hundredths n := by
  have htiny : Decimal.tinyExponent = -1000026 := rfl
  rw [hundredths_eq]
  exact Decimal.nearest_zpow (by omega)

theorem abs_hundredths_lt (n : Nat) : |hundredths n| < Decimal.tooLarge := by
  have hmax : 0 ≤ Decimal.maxExponent := by decide
  rw [hundredths_eq, abs_of_pos (Decimal.ten_zpow_pos _)]
  exact zpow_lt_zpow_right₀ (by norm_num) (by omega)

theorem settles_equals_hundredths {n : Nat} (h : Awaits k (hundredths n) .asterisk)
    (hn : 2 * (2 * n) ≤ 1000026) : Settles (some (hundredths (2 * n))) (k.press .equals) := by
  have hsettles := settles_of_awaits h
  have hproduct : hundredths n * hundredths n = hundredths (2 * n) := by
    rw [hundredths, hundredths, ← pow_add, two_mul]
  have hstep : Operator.asterisk.step? (hundredths n) (hundredths n) =
      some (hundredths (2 * n)) := by
    refine step?_eq_some_iff.mpr ⟨_, rfl, ?_, abs_hundredths_lt _⟩
    rw [hproduct, nearest_hundredths hn]
  rwa [hstep] at hsettles

theorem hundredths_div (n : Nat) : hundredths n / 100 = hundredths (n + 1) := by
  rw [hundredths, hundredths, pow_succ, div_eq_mul_one_div]

theorem settles_percent_hundredths {n : Nat} (h : Settles (some (hundredths n)) k)
    (hn : 2 * (n + 1) ≤ 1000026) : Settles (some (hundredths (n + 1))) (k.press .percent) := by
  have hnearest : Decimal.nearest (hundredths n / 100) = hundredths (n + 1) := by
    rw [hundredths_div, nearest_hundredths hn]
  have hsettles := settles_percent h (hnearest ▸ abs_hundredths_lt _)
  rwa [hnearest] at hsettles

/-- The power after squares, each with a percentage after it or without. -/
def descent (n : Nat) : List Bool → Nat
  | [] => n
  | percentage :: rest => descent (2 * n + percentage.toNat) rest

/-- The keys of squares and percentages. -/
def descentKeys (percentages : List Bool) : List Key :=
  percentages.flatMap fun percentage => squareKeys ++ if percentage then [.percent] else []

theorem le_descent (n : Nat) (percentages : List Bool) : n ≤ descent n percentages := by
  induction percentages generalizing n with
  | nil => exact Nat.le_refl n
  | cons percentage rest ih =>
    have hrest := ih (2 * n + percentage.toNat)
    rw [descent]
    omega

theorem settles_descent {n : Nat} (h : Settles (some (hundredths n)) k) (percentages : List Bool)
    (hlow : 2 * descent n percentages ≤ 1000026) :
    Settles (some (hundredths (descent n percentages))) (k.pressAll (descentKeys percentages)) := by
  induction percentages generalizing k n with
  | nil => exact h
  | cons percentage rest ih =>
    have hbelow := le_descent (2 * n + percentage.toNat) rest
    rw [descent] at hlow
    have hsquare := settles_equals_hundredths (awaits_of_settles h .asterisk) (by omega)
    rw [descentKeys, List.flatMap_cons, pressAll_append, pressAll_append]
    cases percentage with
    | false => exact ih hsquare hlow
    | true => exact ih (settles_percent_hundredths hsquare (by omega)) hlow

/-- Squares with a percentage or without that come to the power 250006 of one hundredth. -/
def tinySquares : List Bool :=
  [true, true, true, false, true, false, false, false, false, true, false, false, true, false,
    true, true, false]

/-- The keys of these squares and of one square more, before equals. -/
def tinyKeys : List Key :=
  .digit ['1'] :: .percent :: (descentKeys tinySquares ++ [Operator.asterisk.key])

theorem awaits_tinyKeys : Awaits (fresh.pressAll tinyKeys) (hundredths 250006) .asterisk := by
  have hshown : valueOf? (fresh.press (.digit ['1'])).display = some (hundredths 0) := by
    decide +kernel
  have hone : Settles (some (hundredths 0)) (fresh.press (.digit ['1'])) := .value rfl hshown rfl
  have hdescent : descent 1 tinySquares = 250006 := by decide
  rw [tinyKeys, pressAll_cons, pressAll_cons, pressAll_append]
  generalize fresh.press (.digit ['1']) = k at hone ⊢
  have hpercent : Settles (some (hundredths 1)) (k.press .percent) :=
    settles_percent_hundredths hone (by omega)
  have hsquares := settles_descent hpercent tinySquares (by rw [hdescent]; omega)
  rw [hdescent] at hsquares
  exact awaits_pressAll_of_settles hsquares .asterisk

/-- A hundredth is not always exact: the second percentage of this square is below all digits. -/
theorem not_hundredth_of_tiny :
    let k := fresh.pressAll tinyKeys
    k.hasError = false ∧ (∃ p, k.pending = some p) ∧ (k.press .equals).hasError = false ∧
      valueOf? ((k.press .equals).press .percent).display = some (hundredths 500013) ∧
      valueOf? (((k.press .equals).press .percent).press .percent).display = some 0 ∧
      hundredths 500013 / 100 ≠ 0 := by
  intro k
  have hawaits : Awaits k (hundredths 250006) .asterisk := awaits_tinyKeys
  -- the display has half a million places, so the keypad is known by its value only
  generalize k = k at hawaits
  have hsquare := settles_equals_hundredths hawaits (by omega)
  have hfirst := settles_percent_hundredths hsquare (by omega)
  have hlast : hundredths 500013 = 10 ^ Decimal.tinyExponent := hundredths_eq 500013
  have hpos := Decimal.ten_zpow_pos Decimal.tinyExponent
  have hlost : Decimal.nearest (hundredths 500013 / 100) = 0 := by
    refine Decimal.nearest_eq_zero ?_
    rw [hlast, abs_div, abs_of_pos hpos]
    generalize (10 : ℚ) ^ Decimal.tinyExponent = unit at hpos
    norm_num
    linarith
  have hsecond := settles_percent hfirst (by rw [hlost, abs_zero]; exact Decimal.tooLarge_pos)
  rw [hlost] at hsecond
  obtain ⟨left, hpending, -⟩ := hawaits.pending
  cases hsquare with
  | value herror _ _ =>
    cases hfirst with
    | value _ hshown _ =>
      cases hsecond with
      | value _ hshown' _ =>
        refine ⟨hawaits.error, ⟨_, hpending⟩, herror, hshown, hshown', ?_⟩
        rw [hlast]
        exact (div_pos hpos (by norm_num)).ne'

end Cambio.Keypad
