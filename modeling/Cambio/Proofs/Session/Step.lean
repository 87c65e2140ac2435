import Cambio.Proofs.Except
import Cambio.Session.Basic
import Mathlib.Data.List.Basic

/-!
# Steps of a session

What is asked of a session changes its converter in a few ways only: nothing changes, an amount is
written in another form, an entry is refused, or a conversion runs.

## Main definitions

- `Session.Operation`, `Session.perform`, `Session.run` — what is asked of a session, and a whole
  run
- `Session.tellsResult` — a result was told
- `Session.Step` — the ways in which a converter changes

## Main statements

- `Session.step_of_perform` — every operation takes one of these ways
-/

namespace Cambio

/-! ## Selections -/

namespace Converter

/-- The selected currencies are offered. -/
structure IsOffered (c : Converter) : Prop where
  fromCurrency : ∀ x, c.fromCurrency = some x → x ∈ c.catalog
  toCurrency : ∀ x, c.toCurrency = some x → x ∈ c.catalog

/-- One converter differs from another in a selection that may be made, and in nothing else that a
    conversion depends on. -/
structure Selects (c d : Converter) : Prop where
  settings : d.settings = c.settings
  client : d.client = c.client
  cache : d.cache = c.cache
  offered : c.IsOffered → d.IsOffered
  finite : c.amount.isFinite = true → d.amount.isFinite = true

variable {c d : Converter} {choice : Choice}

theorem Selects.refl (c : Converter) : Selects c c :=
  ⟨rfl, rfl, rfl, id, id⟩

theorem mem_of_offer? {catalog : List Currency} {code : String} {x : Currency}
    (h : offer? catalog code = some x) : x ∈ catalog :=
  List.mem_of_find?_eq_some h

/-- Whatever is chosen is offered. -/
theorem mem_of_chosen {x : Currency} (h : c.chosen choice = .ok (some x)) : x ∈ c.catalog := by
  cases choice with
  | none => cases h
  | code code =>
    simp only [chosen, currency] at h
    split at h
    · next hoffer =>
      cases h
      exact mem_of_offer? hoffer
    · cases h
  | currency currency =>
    simp only [chosen, offered] at h
    split at h
    · next hoffer =>
      cases h
      exact mem_of_offer? hoffer
    · cases h

theorem selectFrom_eq_ok (h : c.selectFrom choice = .ok d) :
    ∃ x, c.chosen choice = .ok x ∧ d = { c with fromCurrency := x } := by
  obtain ⟨x, hx, rfl⟩ := Except.map_eq_ok_iff.mp h
  exact ⟨x, hx, rfl⟩

theorem selectTo_eq_ok (h : c.selectTo choice = .ok d) :
    ∃ x, c.chosen choice = .ok x ∧ d = { c with toCurrency := x } := by
  obtain ⟨x, hx, rfl⟩ := Except.map_eq_ok_iff.mp h
  exact ⟨x, hx, rfl⟩

/-- Only finite amounts are taken over. -/
theorem enterAmount_eq_ok {e : Entry} (h : c.enterAmount e = .ok d) :
    ∃ amount, amount.isFinite = true ∧ d = { c with amount := amount } := by
  obtain ⟨amount, hvalue, hd⟩ := Except.map_eq_ok_iff.mp h
  refine ⟨amount, ?_, hd.symm⟩
  unfold Entry.value at hvalue
  split at hvalue
  · split at hvalue
    · next hfinite =>
      cases hvalue
      exact hfinite
    · cases hvalue
  · cases hvalue

theorem selects_selectFrom (h : c.selectFrom choice = .ok d) : Selects c d := by
  obtain ⟨x, hchosen, rfl⟩ := selectFrom_eq_ok h
  refine ⟨rfl, rfl, rfl, fun hoffered => ⟨fun y hy => ?_, hoffered.toCurrency⟩, id⟩
  exact mem_of_chosen (hchosen.trans (congrArg Except.ok hy))

theorem selects_selectTo (h : c.selectTo choice = .ok d) : Selects c d := by
  obtain ⟨x, hchosen, rfl⟩ := selectTo_eq_ok h
  refine ⟨rfl, rfl, rfl, fun hoffered => ⟨hoffered.fromCurrency, fun y hy => ?_⟩, id⟩
  exact mem_of_chosen (hchosen.trans (congrArg Except.ok hy))

theorem selects_enterAmount {e : Entry} (h : c.enterAmount e = .ok d) : Selects c d := by
  obtain ⟨amount, hfinite, rfl⟩ := enterAmount_eq_ok h
  exact ⟨rfl, rfl, rfl, fun hoffered => ⟨hoffered.fromCurrency, hoffered.toCurrency⟩,
    fun _ => hfinite⟩

theorem selects_swap (c : Converter) : Selects c c.swap :=
  ⟨rfl, rfl, rfl, fun hoffered => ⟨hoffered.toCurrency, hoffered.fromCurrency⟩, id⟩

end Converter

namespace Session

/-! ## Runs -/

/-- What is asked of a session, and what happens meanwhile. -/
inductive Operation where
  | selectFrom (choice : Converter.Choice)
  | selectTo (choice : Converter.Choice)
  | enterAmount (e : Converter.Entry)
  | swap
  | convert
  | send
  | togglePanel
  | press (key : Keypad.Key)
  /-- Time passes, and the rate service has other answers to come. -/
  | meanwhile (now : Moment) (replies : List Channel.Reply)

/-- Does what is asked of a session. -/
def perform (s : Session) : Operation → Session × List Note
  | .selectFrom choice => s.selectFrom choice
  | .selectTo choice => s.selectTo choice
  | .enterAmount e => s.enterAmount e
  | .swap => s.swap
  | .convert => s.convert
  | .send => s.send.2
  | .togglePanel => s.togglePanel
  | .press key => s.press key
  | .meanwhile now replies =>
    let channel := { s.outside.channel with now := now, replies := replies }
    ({ s with outside := { s.outside with channel := channel } }, [])

/-- Does one thing after the other. -/
def run (s : Session) : List Operation → Session × List Note
  | [] => (s, [])
  | op :: ops => ((run (s.perform op).1 ops).1, (s.perform op).2 ++ (run (s.perform op).1 ops).2)

theorem run_append (s : Session) (ops more : List Operation) :
    s.run (ops ++ more) =
      (((s.run ops).1.run more).1, (s.run ops).2 ++ ((s.run ops).1.run more).2) := by
  induction ops generalizing s with
  | nil => rfl
  | cons op ops ih => simp only [List.cons_append, run, ih, List.append_assoc]

/-- A result was told: the converted amount may have changed. -/
def tellsResult (notes : List Note) : Bool :=
  notes.any fun note => note.property = .converted

theorem tellsResult_append (notes more : List Note) :
    tellsResult (notes ++ more) = (tellsResult notes || tellsResult more) :=
  List.any_append

/-! ## One operation -/

/-- The ways in which an operation changes the converter, and whether a result is told. -/
inductive Step (s : Session) (after : Session × List Note) : Prop where
  /-- Nothing changes. -/
  | quiet (hconverter : after.1.converter = s.converter) (hnotes : tellsResult after.2 = false)
  /-- The amount has another form of the same value, and nothing was wrong. -/
  | restated (amount : Decimal) (hfinite : amount.isFinite = true)
      (hsame : amount.sameValue s.converter.amount = true) (hclean : s.converter.error = none)
      (hconverter : after.1.converter = { s.converter with amount := amount })
      (hnotes : tellsResult after.2 = false)
  /-- An entry is refused. -/
  | refused (message : String) (hconverter : after.1.converter = s.converter.reportError message)
      (hnotes : tellsResult after.2 = true)
  /-- A conversion runs, perhaps with another selection. -/
  | converted (c : Converter) (hselects : s.converter.Selects c)
      (hconverter : after.1.converter = (c.convert s.outside).1)
      (hnotes : tellsResult after.2 = true)

variable {s : Session} {c : Converter}

theorem setBusy_converter (s : Session) (isBusy : Bool) :
    (s.setBusy isBusy).1.converter = s.converter := by
  unfold setBusy
  split <;> rfl

theorem setBusy_outside (s : Session) (isBusy : Bool) :
    (s.setBusy isBusy).1.outside = s.outside := by
  unfold setBusy
  split <;> rfl

theorem convert_converter (s : Session) :
    s.convert.1.converter = (s.converter.convert s.outside).1 := by
  simp only [convert, setBusy_converter, setBusy_outside]

theorem tellsResult_resultProperties (s : Session) :
    tellsResult (s.announce resultProperties) = true :=
  rfl

theorem tellsResult_convert (s : Session) : tellsResult s.convert.2 = true := by
  simp only [convert, tellsResult_append, tellsResult_resultProperties, Bool.or_true]

theorem step_of_convert (s : Session) : Step s s.convert :=
  .converted s.converter (.refl _) (convert_converter s) (tellsResult_convert s)

theorem step_of_reject (s : Session) (fault : Converter.Fault) : Step s (s.reject fault) :=
  .refused fault.message rfl rfl

/-- With conversions in real time a conversion follows every change. -/
theorem step_of_changed (hreal : s.settings.display.isRealTime = true)
    (hselects : s.converter.Selects c) (ps : List Property) :
    Step s (({ s with converter := c } : Session).changed ps) := by
  have hafter : ({ s with converter := c } : Session).afterChange =
      ({ s with converter := c } : Session).convert := by
    have hreal' : c.settings.display.isRealTime = true := by rw [hselects.settings]; exact hreal
    unfold afterChange
    exact if_pos hreal'
  refine .converted c hselects ?_ ?_
  · simp only [changed, hafter, convert_converter]
  · simp only [changed, hafter, tellsResult_append, tellsResult_convert, Bool.or_true]

/-- Nothing follows if a choice leaves the converter as it was. -/
theorem step_of_change_same (hreal : s.settings.display.isRealTime = true)
    (hselects : s.converter.Selects c) {isSame : Bool} (hsame : isSame = true → c = s.converter)
    (p : Property) : Step s (s.change c isSame p) := by
  unfold change
  dsimp only
  split
  · next hskip =>
    have hconverter : c = s.converter := hsame (Bool.and_eq_true_iff.mp hskip).1
    exact .quiet hconverter rfl
  · exact step_of_changed hreal hselects [p]

theorem step_of_selectFrom (hreal : s.settings.display.isRealTime = true)
    (choice : Converter.Choice) : Step s (s.selectFrom choice) := by
  unfold selectFrom
  split
  · exact step_of_reject s _
  · next c hselect =>
    refine step_of_change_same hreal (Converter.selects_selectFrom hselect) (fun hsame => ?_) _
    obtain ⟨x, _, rfl⟩ := Converter.selectFrom_eq_ok hselect
    rw [show x = s.converter.fromCurrency from of_decide_eq_true hsame]

theorem step_of_selectTo (hreal : s.settings.display.isRealTime = true)
    (choice : Converter.Choice) : Step s (s.selectTo choice) := by
  unfold selectTo
  split
  · exact step_of_reject s _
  · next c hselect =>
    refine step_of_change_same hreal (Converter.selects_selectTo hselect) (fun hsame => ?_) _
    obtain ⟨x, _, rfl⟩ := Converter.selectTo_eq_ok hselect
    rw [show x = s.converter.toCurrency from of_decide_eq_true hsame]

theorem step_of_enterAmount (hreal : s.settings.display.isRealTime = true)
    (e : Converter.Entry) : Step s (s.enterAmount e) := by
  unfold enterAmount
  split
  · exact step_of_reject s _
  · next c henter =>
    have hselects := Converter.selects_enterAmount henter
    obtain ⟨amount, hfinite, hc⟩ := Converter.enterAmount_eq_ok henter
    unfold change
    dsimp only
    split
    · next hskip =>
      obtain ⟨hsame, hclean⟩ := Bool.and_eq_true_iff.mp hskip
      rw [hc] at hsame hclean
      refine .restated amount hfinite hsame ?_ hc rfl
      simpa [Converter.hasError] using hclean
    · exact step_of_changed hreal hselects _

/-- Sending enters an amount, or nothing happens. -/
theorem step_of_send (hreal : s.settings.display.isRealTime = true) : Step s s.send.2 := by
  unfold send
  split
  · exact .quiet rfl rfl
  · split
    · exact step_of_enterAmount hreal _
    · exact .quiet rfl rfl

/-- Showing or hiding the panel, and telling of it, changes nothing about the way that follows. -/
theorem Step.ofPanel {isShown : Bool} {after : Session × List Note}
    (h : Step { s with panelShown := isShown } after) :
    Step s (after.1,
      ({ s with panelShown := isShown } : Session).announce [.panelShown] ++ after.2) := by
  cases h with
  | quiet hconverter hnotes => exact .quiet hconverter hnotes
  | restated amount hfinite hsame hclean hconverter hnotes =>
    exact .restated amount hfinite hsame hclean hconverter hnotes
  | refused message hconverter hnotes => exact .refused message hconverter hnotes
  | converted c hselects hconverter hnotes => exact .converted c hselects hconverter hnotes

theorem step_of_togglePanel (hreal : s.settings.display.isRealTime = true) :
    Step s s.togglePanel := by
  unfold togglePanel
  dsimp only
  split
  · have hsend : Step _ ({ s with panelShown := !s.panelShown } : Session).send.2 :=
      step_of_send hreal
    exact hsend.ofPanel
  · exact .quiet rfl rfl

/-- Every operation takes one of the ways. -/
theorem step_of_perform (hreal : s.settings.display.isRealTime = true) (op : Operation) :
    Step s (s.perform op) := by
  cases op with
  | selectFrom choice => exact step_of_selectFrom hreal choice
  | selectTo choice => exact step_of_selectTo hreal choice
  | enterAmount e => exact step_of_enterAmount hreal e
  | swap => exact step_of_changed hreal (Converter.selects_swap _) _
  | convert => exact step_of_convert s
  | send => exact step_of_send hreal
  | togglePanel => exact step_of_togglePanel hreal
  | press key => exact .quiet rfl rfl
  | meanwhile now replies => exact .quiet rfl rfl

end Session

end Cambio
