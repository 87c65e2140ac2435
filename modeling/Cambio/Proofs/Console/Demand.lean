import Cambio.Proofs.Console.Course
import Cambio.Proofs.Conversion.Answered
import Cambio.Proofs.Conversion.Invariant

/-!
# Conversions on demand

Without conversions in real time an exchange and a swap convert, and what they show without an error
is right. Sending a number and opening the panel only enter another amount: what is shown then is
the result of the last conversion next to the new amount. It is right exactly if both amounts have
the same worth.

## Main definitions

- `Converter.worth?` — an amount at the rate of the selected pair
- `Console.Command.converts`, `Console.Command.sends` — what a command does
- `Console.lastConverted` — the converter after the last conversion
- `Console.DemandRules` — what a command shows

## Main statements

- `Console.isRight_of_converts` — commands that convert
- `Console.exists_amount_of_not_converts` — all other commands
- `Console.demandRules_ofSettings` — all lines of a session that converts on demand
-/

namespace Cambio

/-! ## Converters -/

namespace Converter

variable {c : Converter} {settings : Settings}

/-- An amount at the rate of the selected pair, if there is one. -/
def worth? (c : Converter) (amount : Decimal) : Option Decimal := do
  let job ← c.job?
  let r ← (c.resolve job.fromCode job.toCode).1.toOption
  (amount.mul r.rate).toOption

theorem worth?_eq_some_iff {amount product : Decimal} :
    c.worth? amount = some product ↔ ∃ job r, c.job? = some job ∧
      (c.resolve job.fromCode job.toCode).1 = .ok r ∧ amount.mul r.rate = .ok product := by
  simp only [worth?, Option.bind_eq_bind, Option.bind_eq_some_iff,
    Except.toOption_eq_some_iff]
  exact ⟨fun ⟨job, hjob, r, hr, hproduct⟩ => ⟨job, r, hjob, hr, hproduct⟩,
    fun ⟨job, r, hjob, hr, hproduct⟩ => ⟨job, hjob, r, hr, hproduct⟩⟩

/-- What is shown is right if it has the value of what the amount is worth. -/
theorem isRight_iff_worth? :
    c.IsRight ↔ ∃ product, c.worth? c.amount = some product ∧
      c.converted.sameValue product = true := by
  constructor
  · rintro ⟨job, r, product, hjob, hresolve, hproduct, hsame⟩
    rw [job_amount hjob] at hproduct
    exact ⟨product, worth?_eq_some_iff.mpr ⟨job, r, hjob, hresolve, hproduct⟩, hsame⟩
  · rintro ⟨product, hworth, hsame⟩
    obtain ⟨job, r, hjob, hresolve, hproduct⟩ := worth?_eq_some_iff.mp hworth
    exact ⟨job, r, product, hjob, hresolve, by rw [job_amount hjob]; exact hproduct, hsame⟩

/-- What an amount is worth does not depend on the amount that is entered. -/
theorem worth?_withAmount (c : Converter) (entered amount : Decimal) :
    ({ c with amount := entered } : Converter).worth? amount = c.worth? amount := by
  have hresolve (fromCode toCode : String) :
      (({ c with amount := entered } : Converter).resolve fromCode toCode).1 =
        (c.resolve fromCode toCode).1 :=
    resolve_fst_congr (c := { c with amount := entered }) (d := c) rfl rfl fromCode toCode
  simp only [worth?, job?, Option.bind_eq_bind, Option.bind_assoc, Option.pure_def,
    Option.bind_some, hresolve]

/-- What holds of a converter at all times: its rates are in order and its amount is finite. -/
structure IsFit (settings : Settings) (c : Converter) : Prop where
  settings : c.settings = settings
  inOrder : ∃ xs, c.cache.InOrder xs
  finite : c.amount.isFinite = true

theorem IsFit.usable (h : c.IsFit settings) : c.cache.IsUsable := by
  obtain ⟨xs, horder⟩ := h.inOrder
  exact isUsable_of_isSound horder.sound

theorem isKept_isFit (settings : Settings) : IsKept (IsFit settings) where
  fromCurrency _ _ h := ⟨h.settings, h.inOrder, h.finite⟩
  toCurrency _ _ h := ⟨h.settings, h.inOrder, h.finite⟩
  reportError _ _ h := ⟨h.settings, h.inOrder, h.finite⟩
  convert c o h := by
    obtain ⟨xs, horder⟩ := h.inOrder
    obtain ⟨hsame, -⟩ := convert_selection c o
    refine ⟨hsame.settings.trans h.settings, ⟨_, inOrder_perform horder o .convert⟩, ?_⟩
    rw [hsame.amount]
    exact h.finite

theorem isFit_ofSettings (settings : Settings) (client : Client) (store : Option Path)
    (now : Moment) : (ofSettings settings client store (baselineCache now)).IsFit settings :=
  ⟨rfl, ⟨[], inOrder_baselineCache now⟩, rfl⟩

theorem IsFit.warmUp (h : c.IsFit settings) (o : Outside) : (c.warmUp o).2.1.IsFit settings := by
  obtain ⟨xs, horder⟩ := h.inOrder
  have hview := sameView_warmUp c o
  refine ⟨hview.settings.trans h.settings, ⟨_, inOrder_perform horder o .warmUp⟩, ?_⟩
  rw [hview.amount]
  exact h.finite

theorem isFinite_of_value {e : Entry} {amount : Decimal} (h : e.value = .ok amount) :
    amount.isFinite = true := by
  unfold Entry.value at h
  split at h
  · split_ifs at h with hfinite
    cases h
    exact hfinite
  · cases h

end Converter

/-! ## Changes of a session -/

namespace Session

variable {s : Session} {c : Converter}

theorem changed_of_demand (hdemand : s.settings.display.isRealTime = false) (ps : List Property) :
    s.changed ps = (s, s.announce ps) := by
  unfold changed afterChange
  rw [hdemand]
  exact congrArg (Prod.mk s) (List.append_nil _)

/-- A change is taken over, and nothing follows. -/
theorem change_of_demand (hdemand : c.settings.display.isRealTime = false) (isSame : Bool)
    (p : Property) : (s.change c isSame p).1 = { s with converter := c } := by
  unfold change
  dsimp only
  split
  · rfl
  · rw [changed_of_demand (s := { s with converter := c }) hdemand]

theorem outside_selectFrom (hdemand : s.settings.display.isRealTime = false)
    (choice : Converter.Choice) : (s.selectFrom choice).1.outside = s.outside := by
  unfold selectFrom
  split
  · rfl
  · next c hselect =>
    rw [change_of_demand ((Converter.selects_selectFrom hselect).settings ▸ hdemand)]

theorem outside_selectTo (hdemand : s.settings.display.isRealTime = false)
    (choice : Converter.Choice) : (s.selectTo choice).1.outside = s.outside := by
  unfold selectTo
  split
  · rfl
  · next c hselect =>
    rw [change_of_demand ((Converter.selects_selectTo hselect).settings ▸ hdemand)]

theorem outside_enterAmount (hdemand : s.settings.display.isRealTime = false)
    (e : Converter.Entry) : (s.enterAmount e).1.outside = s.outside := by
  unfold enterAmount
  split
  · rfl
  · next c henter =>
    rw [change_of_demand ((Converter.selects_enterAmount henter).settings ▸ hdemand)]

theorem enterAmount_of_demand (hdemand : s.settings.display.isRealTime = false)
    {e : Converter.Entry} {amount : Decimal} (hvalue : e.value = .ok amount) :
    (s.enterAmount e).1 = { s with converter := { s.converter with amount := amount } } := by
  have henter : s.converter.enterAmount e = .ok { s.converter with amount := amount } := by
    rw [Converter.enterAmount, hvalue]
    rfl
  rw [enterAmount, henter]
  exact change_of_demand (c := { s.converter with amount := amount }) hdemand _ _

theorem convert_outside (s : Session) :
    s.convert.1.outside = (s.converter.convert s.outside).2 := by
  simp only [convert, setBusy_converter, setBusy_outside]

end Session

/-! ## Commands -/

namespace Console

open Converter (IsFit isKept_isFit isFinite_of_value)

variable {s : Session} {command : Command} {settings : Settings} {line : List Char}
  {lines done : List (List Char)}

/-- A command converts: it swaps, or it is an exchange of two offered currencies. -/
def Command.converts (s : Session) : Command → Bool
  | .exchange _ fromCode toCode => (pairOf s fromCode toCode).toBool
  | .swap => true
  | _ => false

/-- A command sends the number on the keypad to the panel. -/
def Command.sends (s : Session) : Command → Bool
  | .send => true
  | .panel => !s.panelShown && s.settings.display.synchronizes
  | _ => false

theorem keepsEntry_isFit (settings : Settings) (e? : Option Converter.Entry) :
    KeepsEntry (IsFit settings) e? :=
  fun _ _ _ _ hvalue h => ⟨h.settings, h.inOrder, isFinite_of_value hvalue⟩

theorem course_exchange {amount fromCode toCode : List Char} {x y : Currency}
    (hpair : pairOf s fromCode toCode = .ok (x, y)) :
    (course s (.exchange amount fromCode toCode)).session =
      (convertIfNeeded (((s.selectFrom (.currency x)).1.selectTo (.currency y)).1.enterAmount
        (.ofText amount)).1).1 := by
  simp only [course, Course.ofExchange, hpair]

theorem course_refused {amount fromCode toCode : List Char} {f : Converter.Fault}
    (hpair : pairOf s fromCode toCode = .error f) :
    course s (.exchange amount fromCode toCode) = ⟨s, [], .lines [faultLine f]⟩ := by
  simp only [course, Course.ofExchange, hpair]

theorem isRight_of_convert (hfit : s.converter.IsFit settings)
    (hanswers : s.outside.channel.Answers) :
    (s.convert.1.converter.error = none → s.convert.1.converter.IsRight) ∧
      s.convert.1.outside.channel.Answers := by
  rw [Session.convert_converter, Session.convert_outside]
  exact ⟨Converter.isRight_convert hfit.usable hfit.finite hanswers,
    Converter.answers_convert _ hanswers⟩

theorem convertIfNeeded_of_demand (hdemand : s.settings.display.isRealTime = false) :
    convertIfNeeded s = s.convert := by
  rw [convertIfNeeded, hdemand]
  rfl

theorem demand_of_isFit (hfit : s.converter.IsFit settings)
    (hdemand : settings.display.isRealTime = false) : s.settings.display.isRealTime = false := by
  rw [Session.settings, hfit.settings]
  exact hdemand

/-- What a command ends with that converts if it is needed. -/
theorem isRight_of_convertIfNeeded (hfit : s.converter.IsFit settings)
    (hdemand : settings.display.isRealTime = false) (hanswers : s.outside.channel.Answers) :
    ((convertIfNeeded s).1.converter.error = none → (convertIfNeeded s).1.converter.IsRight) ∧
      (convertIfNeeded s).1.outside.channel.Answers := by
  rw [convertIfNeeded_of_demand (demand_of_isFit hfit hdemand)]
  exact isRight_of_convert hfit hanswers

theorem isRight_of_exchange (hfit : s.converter.IsFit settings)
    (hdemand : settings.display.isRealTime = false) (hanswers : s.outside.channel.Answers)
    {amount fromCode toCode : List Char} {x y : Currency}
    (hpair : pairOf s fromCode toCode = .ok (x, y)) :
    ((course s (.exchange amount fromCode toCode)).session.converter.error = none →
        (course s (.exchange amount fromCode toCode)).session.converter.IsRight) ∧
      (course s (.exchange amount fromCode toCode)).session.outside.channel.Answers := by
  have hfirst := Session.throughout_selectFrom (isKept_isFit settings) hfit (.currency x)
  have hsecond := Session.throughout_selectTo (isKept_isFit settings) hfirst.last (.currency y)
  have hthird := Session.throughout_enterAmount (isKept_isFit settings) hsecond.last
    fun a ha => keepsEntry_isFit settings (some (.ofText amount)) _ a _ rfl ha hsecond.last
  -- the entries ask nothing of the rate service
  have houtside : ((((s.selectFrom (.currency x)).1.selectTo (.currency y)).1.enterAmount
      (.ofText amount)).1).outside = s.outside := by
    rw [Session.outside_enterAmount (demand_of_isFit hsecond.last hdemand),
      Session.outside_selectTo (demand_of_isFit hfirst.last hdemand),
      Session.outside_selectFrom (demand_of_isFit hfit hdemand)]
  rw [course_exchange hpair]
  exact isRight_of_convertIfNeeded hthird.last hdemand (houtside ▸ hanswers)

theorem isRight_of_swap (hfit : s.converter.IsFit settings)
    (hdemand : settings.display.isRealTime = false) (hanswers : s.outside.channel.Answers) :
    ((course s .swap).session.converter.error = none →
        (course s .swap).session.converter.IsRight) ∧
      (course s .swap).session.outside.channel.Answers := by
  obtain ⟨swapped, hswapped⟩ : ∃ t : Session, t = { s with converter := s.converter.swap } :=
    ⟨_, rfl⟩
  have hfit' : swapped.converter.IsFit settings := by
    rw [hswapped]
    exact ⟨hfit.settings, hfit.inOrder, hfit.finite⟩
  have hswap : s.swap = (swapped, swapped.announce [.fromCurrency, .toCurrency]) := by
    rw [← Session.changed_of_demand (demand_of_isFit hfit' hdemand), hswapped]
    rfl
  have houtside : swapped.outside = s.outside := by rw [hswapped]
  unfold course
  dsimp only
  rw [hswap]
  exact isRight_of_convertIfNeeded hfit' hdemand (houtside ▸ hanswers)

/-- **Commands that convert**: what they show without an error is right. -/
theorem isRight_of_converts (hfit : s.converter.IsFit settings)
    (hdemand : settings.display.isRealTime = false) (hanswers : s.outside.channel.Answers)
    (hconverts : command.converts s = true) :
    ((course s command).session.converter.error = none →
        (course s command).session.converter.IsRight) ∧
      (course s command).session.outside.channel.Answers := by
  cases command with
  | exchange amount fromCode toCode =>
    cases hpair : pairOf s fromCode toCode with
    | error f =>
      rw [Command.converts, hpair] at hconverts
      cases hconverts
    | ok pair => exact isRight_of_exchange hfit hdemand hanswers hpair
  | swap => exact isRight_of_swap hfit hdemand hanswers
  | _ => cases hconverts

theorem send_of_demand (hdemand : s.settings.display.isRealTime = false) :
    (∃ amount, s.send.2.1.converter = { s.converter with amount := amount }) ∧
      s.send.2.1.outside = s.outside := by
  cases hkeypad : s.sendable? with
  | none =>
    rw [Session.send_of_none hkeypad]
    exact ⟨⟨s.converter.amount, rfl⟩, rfl⟩
  | some e =>
    obtain ⟨d, -, -, hvalue⟩ := exists_of_sendable? hkeypad
    rw [Session.send_of_sendable? hkeypad]
    dsimp only
    rw [Session.enterAmount_of_demand hdemand hvalue]
    exact ⟨⟨d, rfl⟩, rfl⟩

/-- **All other commands** enter at most another amount, and ask nothing of the rate service. -/
theorem exists_amount_of_not_converts (hdemand : s.settings.display.isRealTime = false)
    (hconverts : command.converts s = false) :
    (∃ amount, (course s command).session.converter = { s.converter with amount := amount }) ∧
      (course s command).session.outside = s.outside := by
  have hsame : (∃ amount, s.converter = { s.converter with amount := amount }) ∧
      s.outside = s.outside := ⟨⟨s.converter.amount, rfl⟩, rfl⟩
  cases command with
  | quit | help | exchangeUsage | rates | key => exact hsame
  | swap => cases hconverts
  | exchange amount fromCode toCode =>
    cases hpair : pairOf s fromCode toCode with
    | error f =>
      rw [course_refused hpair]
      exact hsame
    | ok pair =>
      rw [Command.converts, hpair] at hconverts
      cases hconverts
  | keys text =>
    obtain ⟨hconverter, houtside⟩ := pressKeys_leaves s text
    change (∃ amount, (pressKeys s text).1.converter = _) ∧ (pressKeys s text).1.outside = _
    rw [hconverter, houtside]
    exact hsame
  | send =>
    have hsend := send_of_demand hdemand
    unfold course
    generalize s.send = sent at hsend ⊢
    obtain ⟨_ | _, after, told⟩ := sent
    · exact hsend
    · exact hsend
  | panel =>
    have hsend := send_of_demand (s := { s with panelShown := !s.panelShown }) hdemand
    have htoggle : (∃ amount, s.togglePanel.1.converter = { s.converter with amount := amount }) ∧
        s.togglePanel.1.outside = s.outside := by
      unfold Session.togglePanel
      dsimp only
      split
      · exact hsend
      · exact hsame
    unfold course
    dsimp only
    split
    · exact htoggle
    · exact htoggle

/-! ## Lines -/

/-- A line converts. -/
def lineConverts (s : Session) (line : List Char) : Bool :=
  match Command.ofLine? line with
  | some command => command.converts s
  | none => false

/-- The converter after the last of some lines that converts, or the one of before. -/
def lastConverted (last : Converter) (s : Session) : List (List Char) → Converter
  | [] => last
  | line :: rest =>
    lastConverted (if lineConverts s line then (outcome s line).session.converter else last)
      (outcome s line).session rest

/-- How a session stands that began with the converter `first` and whose last conversion left the
    converter `last`. -/
structure Follows (settings : Settings) (first last : Converter) (s : Session) : Prop where
  fit : s.converter.IsFit settings
  answers : s.outside.channel.Answers
  /-- Since then at most the amount has changed. -/
  kept : ∃ amount, s.converter = { last with amount := amount }
  right : last = first ∨ (last.error = none → last.IsRight)

variable {first last : Converter}

theorem Follows.follows_course (h : Follows settings first last s)
    (hdemand : settings.display.isRealTime = false) (command : Command) :
    Follows settings first
      (if command.converts s then (course s command).session.converter else last)
      (course s command).session := by
  have hfit : (course s command).session.converter.IsFit settings :=
    (kept_course (isKept_isFit settings) h.fit (keepsEntry_isFit settings _)).1
  cases hconverts : command.converts s with
  | true =>
    obtain ⟨hright, hanswers⟩ := isRight_of_converts h.fit hdemand h.answers hconverts
    rw [if_pos rfl]
    exact ⟨hfit, hanswers, ⟨_, rfl⟩, .inr hright⟩
  | false =>
    obtain ⟨⟨amount, hconverter⟩, houtside⟩ :=
      exists_amount_of_not_converts (demand_of_isFit h.fit hdemand) hconverts
    obtain ⟨before, hbefore⟩ := h.kept
    rw [if_neg Bool.false_ne_true]
    exact ⟨hfit, houtside ▸ h.answers, ⟨amount, by rw [hconverter, hbefore]⟩, h.right⟩

theorem Follows.follows_outcome (h : Follows settings first last s)
    (hdemand : settings.display.isRealTime = false) (hgoes : (outcome s line).isStuck = false) :
    Follows settings first
      (if lineConverts s line then (outcome s line).session.converter else last)
      (outcome s line).session := by
  unfold outcome at hgoes ⊢
  unfold lineConverts
  cases hcommand : Command.ofLine? line with
  | none => exact h
  | some command =>
    rw [hcommand] at hgoes
    dsimp only at hgoes ⊢
    rw [attempt_of_not_isStuck hgoes]
    exact h.follows_course hdemand command

/-- What lines leave. -/
theorem Follows.follows_after (h : Follows settings first last s)
    (hdemand : settings.display.isRealTime = false) (hdone : AllAnswered s done) :
    Follows settings first (lastConverted last s done) (after s done) := by
  -- each line that converts is the last one for those after it, so `last` varies
  induction done generalizing s last with
  | nil => exact h
  | cons line rest ih => exact ih (h.follows_outcome hdemand hdone.1) hdone.2

/-- What a command shows after some lines. -/
structure DemandRules (s : Session) (done : List (List Char)) (command : Command) : Prop where
  /-- A swap and an exchange of offered currencies convert. -/
  converting : command.converts (after s done) = true →
    (run (after s done) command).1.converter.error = none →
    (run (after s done) command).1.converter.IsRight
  /-- So what the last conversion left is right, if there was one and it shows no error. -/
  last : lastConverted s.converter s done = s.converter ∨
    ((lastConverted s.converter s done).error = none →
      (lastConverted s.converter s done).IsRight)
  /-- All other commands leave it as it is, but for the amount. -/
  keeping : command.converts (after s done) = false → ∃ amount,
    (run (after s done) command).1.converter =
      { lastConverted s.converter s done with amount := amount }
  /-- The amount that is sent is the number on the keypad. -/
  sending : ∀ d, command.sends (after s done) = true → (after s done).keypad.hasError = false →
    Keypad.parseNumber (after s done).keypad.display = .ok d →
    (run (after s done) command).1.converter.amount = d
  /-- So the result is right exactly if it is what the new amount is worth. -/
  right_iff : command.converts (after s done) = false →
    ((run (after s done) command).1.converter.IsRight ↔ ∃ product,
      (lastConverted s.converter s done).worth? (run (after s done) command).1.converter.amount =
        some product ∧
      (lastConverted s.converter s done).converted.sameValue product = true)

theorem amount_of_send (hdemand : s.settings.display.isRealTime = false) {d : Decimal}
    (herror : s.keypad.hasError = false) (hnumber : Keypad.parseNumber s.keypad.display = .ok d) :
    s.send.2.1.converter.amount = d := by
  have hkeypad : s.sendable? = some (.ofDecimal d) := by
    rw [Session.sendable?, herror, hnumber]
    rfl
  obtain ⟨d', -, hnumber', hvalue⟩ := exists_of_sendable? hkeypad
  cases hnumber.symm.trans hnumber'
  rw [Session.send_of_sendable? hkeypad]
  dsimp only
  rw [Session.enterAmount_of_demand hdemand hvalue]

theorem amount_of_sends (hdemand : s.settings.display.isRealTime = false)
    (hsends : command.sends s = true) {d : Decimal} (herror : s.keypad.hasError = false)
    (hnumber : Keypad.parseNumber s.keypad.display = .ok d) :
    (course s command).session.converter.amount = d := by
  cases command with
  | send =>
    have hamount := amount_of_send hdemand herror hnumber
    unfold course
    generalize s.send = sent at hamount ⊢
    obtain ⟨_ | _, after, told⟩ := sent
    · exact hamount
    · exact hamount
  | panel =>
    have htoggle : s.togglePanel.1.converter.amount = d := by
      have hopens : (!s.panelShown &&
          ({ s with panelShown := !s.panelShown } : Session).settings.display.synchronizes) =
            true :=
        hsends
      unfold Session.togglePanel
      dsimp only
      rw [if_pos hopens]
      exact amount_of_send (s := { s with panelShown := !s.panelShown }) hdemand herror hnumber
    unfold course
    dsimp only
    split
    · exact htoggle
    · exact htoggle
  | _ => cases hsends

theorem Follows.demandRules (h : Follows settings s.converter s.converter s)
    (hdemand : settings.display.isRealTime = false) (hdone : AllAnswered s done)
    (command : Command) : DemandRules s done command := by
  have hafter := h.follows_after hdemand hdone
  have hcommand := hafter.follows_course hdemand command
  have hdemand' : (after s done).settings.display.isRealTime = false :=
    demand_of_isFit hafter.fit hdemand
  have hkeeping : command.converts (after s done) = false → ∃ amount,
      (run (after s done) command).1.converter =
        { lastConverted s.converter s done with amount := amount } := by
    intro hconverts
    rw [hconverts, if_neg Bool.false_ne_true] at hcommand
    exact hcommand.kept
  refine ⟨fun hconverts => ?_, hafter.right, hkeeping, fun d hsends herror hnumber => ?_,
    fun hconverts => ?_⟩
  · exact (isRight_of_converts hafter.fit hdemand hafter.answers hconverts).1
  · exact amount_of_sends hdemand' hsends herror hnumber
  · obtain ⟨amount, hconverter⟩ := hkeeping hconverts
    rw [hconverter, Converter.isRight_iff_worth?, Converter.worth?_withAmount]

/-- **Conversions on demand**: whatever lines came before, in a new session and in one that is
    warmed up, if something comes back for every request. -/
theorem demandRules_ofSettings {o : Outside} (hstart : Session.ofSettings settings o = .ok s)
    (hdemand : settings.display.isRealTime = false) (hanswers : o.channel.Answers)
    (done : List (List Char)) (command : Command) :
    (AllAnswered s done → DemandRules s done command) ∧
      (AllAnswered s.warmedUp.2 done → DemandRules s.warmedUp.2 done command) := by
  obtain ⟨config, -, rfl⟩ := Except.map_eq_ok_iff.mp hstart
  have hfit := Converter.isFit_ofSettings settings (.ofConfig config) (some settings.rates.path)
    o.now
  constructor
  · intro hdone
    exact Follows.demandRules ⟨hfit, hanswers, ⟨_, rfl⟩, .inl rfl⟩ hdemand hdone command
  · intro hdone
    exact Follows.demandRules ⟨hfit.warmUp o, Converter.answers_warmUp _ hanswers, ⟨_, rfl⟩,
      .inl rfl⟩ hdemand hdone command

/-- Settings for dollars and euros that are converted on demand. -/
def demandSettings : Settings :=
  { Session.pairSettings with display := { Settings.Display.default with isRealTime := false } }

/-- A new session with these settings, of which the rate service cannot be reached. -/
def demandSession : Session where
  keypad := .fresh
  converter := .ofSettings demandSettings (.ofConfig demandSettings.service.client)
    (some demandSettings.rates.path) (Converter.baselineCache .earliest)
  panelShown := false
  isBusy := false
  outside := ⟨⟨.earliest, [], [], []⟩, .empty⟩

theorem ofSettings_demandSettings :
    Session.ofSettings demandSettings demandSession.outside = .ok demandSession := by
  have haccepted : demandSettings.service.client.accept = .ok demandSettings.service.client := by
    decide +kernel
  rw [Session.ofSettings, haccepted]
  rfl

theorem answers_demandSession : demandSession.outside.channel.Answers :=
  fun _ hreply => absurd hreply List.not_mem_nil

/-- Two dollars are exchanged, and after the swap two euros are: both results are right. -/
theorem demandRules_ofSettings_swap :
    Session.ofSettings demandSettings demandSession.outside = .ok demandSession ∧
      demandSettings.display.isRealTime = false ∧ demandSession.outside.channel.Answers ∧
      AllAnswered demandSession ["fx 2 USD EUR".toList] ∧
      (run (after demandSession ["fx 2 USD EUR".toList]) .swap).1.converter.IsRight := by
  have hdone : AllAnswered demandSession ["fx 2 USD EUR".toList] :=
    ⟨by decide +kernel, trivial⟩
  have hrules := (demandRules_ofSettings ofSettings_demandSettings rfl answers_demandSession
    ["fx 2 USD EUR".toList] .swap).1 hdone
  exact ⟨ofSettings_demandSettings, rfl, answers_demandSession, hdone,
    hrules.converting rfl (by decide +kernel)⟩

/-- The number that is sent first is shown next to the zero of the beginning. -/
theorem not_isRight_of_send :
    Session.ofSettings demandSettings demandSession.outside = .ok demandSession ∧
      demandSettings.display.isRealTime = false ∧ demandSession.outside.channel.Answers ∧
      AllAnswered demandSession [['5']] ∧
      (course (after demandSession [['5']]) .send).view = .panel [] ∧
      (run (after demandSession [['5']]) .send).1.converter.error = none ∧
      ¬ (run (after demandSession [['5']]) .send).1.converter.IsRight ∧
      (run (after demandSession [['5']]) .send).2 =
        ["5.00 USD = 0.00000 EUR".toList, "Not updated yet".toList] := by
  refine ⟨ofSettings_demandSettings, rfl, answers_demandSession, ⟨by decide +kernel, trivial⟩,
    by decide +kernel, by decide +kernel, fun hright => ?_, by decide +kernel⟩
  obtain ⟨product, hworth, hsame⟩ := Converter.isRight_iff_worth?.mp hright
  have hproduct : (run (after demandSession [['5']]) .send).1.converter.worth?
      (run (after demandSession [['5']]) .send).1.converter.amount =
        some (.finite false 460 (-2)) := by decide +kernel
  have hzero : (run (after demandSession [['5']]) .send).1.converter.converted = .zero := by
    decide +kernel
  rw [hproduct] at hworth
  cases hworth
  rw [hzero] at hsame
  cases hsame

end Console

end Cambio
