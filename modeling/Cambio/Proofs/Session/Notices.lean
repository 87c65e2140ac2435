import Cambio.Proofs.Console.Demand
import Cambio.Proofs.Decimal.Places
import Cambio.Proofs.Session.Step

/-!
# What is told of changes

An operation tells of the properties it has changed. All but one are told, with the value that they
end with. The exception is the line that shows a conversion: it is told with every result, but it
also changes with the selection, and when no conversion follows nobody is told.

Listeners hear the notes one after the other until one gets stuck: before a result is told its line
is written, and there may be no room for it.

## Main definitions

- `Session.shown`, `Session.Changes` — what a property shows, and that it shows something else
- `Session.heard`, `Session.Completes`, `Session.Hears` — the notes before one gets stuck
- `Session.NoticeRules` — which changes are told

## Main statements

- `Session.noticeRules_perform` — the rules hold for every session and every operation
- `Session.not_hears_result_of_onDemand` — a line that changes without a note
-/

namespace Cambio.Session

/-! ## What is shown -/

/-- What a property shows. -/
inductive Shown where
  | currency (currency : Option Currency)
  | number (value : Decimal)
  | text (text : List Char)
  | flag (isOn : Bool)
  deriving DecidableEq, Repr

/-- What a session shows of a property. -/
def shown (s : Session) : Property → Shown
  | .display => .text s.keypad.display
  | .expression => .text s.keypad.expression
  | .keypadError => .flag s.keypad.hasError
  | .keypadMessage => .text s.keypad.errorMessage.toList
  | .panelShown => .flag s.panelShown
  | .fromCurrency => .currency s.converter.fromCurrency
  | .toCurrency => .currency s.converter.toCurrency
  | .amount => .number s.converter.amount
  | .converted => .number s.converter.converted
  | .result => .text s.resultText
  | .updated => .text s.updatedText
  | .panelError => .flag s.converter.hasError
  | .busy => .flag s.isBusy

/-- A property has another value than before. Two forms of one amount are one value. -/
structure Changes (s t : Session) (p : Property) : Prop where
  differs : t.shown p ≠ s.shown p
  amount : p = .amount → t.converter.amount.sameValue s.converter.amount = false

/-- A zero is the amount again, with the other sign, and nothing was wrong. -/
structure Flips (s t : Session) : Prop where
  before : s.converter.amount.isZero = true
  after : t.converter.amount.isZero = true
  sign : t.converter.amount.isNegative ≠ s.converter.amount.isNegative
  clean : s.converter.error = none

/-! ## What is heard -/

/-- The notes up to the first that gets stuck. -/
def heard (notes : List Note) : List Note :=
  notes.takeWhile fun note => !note.isStuck

/-- No note gets stuck. -/
def Completes (notes : List Note) : Prop :=
  ∀ note ∈ notes, note.isStuck = false

/-- A property is heard of once it has the value that it ends with. -/
def Hears (after : Session × List Note) (p : Property) : Prop :=
  ∃ note ∈ heard after.2, note.property = p ∧ note.seen.shown p = after.1.shown p

variable {s t : Session} {after : Session × List Note} {first notes : List Note} {p : Property}
  {isTold : Bool}

theorem isStuck_of_ne {note : Note} (h : note.property ≠ .converted) : note.isStuck = false := by
  rw [Note.isStuck, decide_eq_false h, Bool.false_and]

/-- Only a result gets stuck. -/
theorem heard_append (h : ∀ note ∈ first, note.property ∉ resultProperties) :
    heard (first ++ notes) = first ++ heard notes := by
  refine List.takeWhile_append_of_pos fun note hnote => ?_
  rw [isStuck_of_ne fun hconverted => h note hnote (by rw [hconverted]; decide)]
  rfl

theorem heard_eq_self (h : Completes notes) : heard notes = notes :=
  List.takeWhile_eq_self_iff.mpr fun note hnote => by rw [h note hnote]; rfl

theorem completes_announce (h : s.isShowable = true) (ps : List Property) :
    Completes (s.announce ps) := by
  intro note hnote
  obtain ⟨p, -, rfl⟩ := List.mem_map.mp hnote
  rw [Note.isStuck, h, Bool.not_true, Bool.and_false]

/-- Which changes are told. -/
structure NoticeRules (s : Session) (after : Session × List Note) : Prop where
  /-- A change of the selection is heard of in any case, and so is one of the keypad. -/
  selection (p : Property) (hp : p ∉ resultProperties) (h : Changes s after.1 p) : Hears after p
  /-- A change of the result is heard of unless it gets stuck, except perhaps that of its line. -/
  result (hdone : Completes after.2) (p : Property) (hp : p ≠ .result)
    (h : Changes s after.1 p) : Hears after p
  /-- The line is heard of exactly if a result is told. -/
  line (hdone : Completes after.2) : Hears after .result ↔ tellsResult after.2 = true
  /-- With conversions in real time a change of the line is heard of, unless a zero only changes its
      sign. -/
  realTime (hreal : s.settings.display.isRealTime = true) (hdone : Completes after.2)
    (h : Changes s after.1 .result) (hflips : ¬ Flips s after.1) : Hears after .result
  /-- Without them the line is not told when the selection changes. -/
  onDemand (hreal : s.settings.display.isRealTime = false)
    (h : Changes s after.1 .fromCurrency ∨ Changes s after.1 .toCurrency ∨
      Changes s after.1 .amount) : tellsResult after.2 = false ∧ ¬ Hears after .result
  /-- A note gets stuck exactly if a result is told of which the line cannot be written. -/
  stuck : ¬ Completes after.2 ↔ tellsResult after.2 = true ∧ after.1.isShowable = false

/-! ## The course of an operation -/

/-- An operation tells first of what it has changed apart from the result, and then of the result or
    not at all. -/
structure Course (s : Session) (after : Session × List Note) (first : List Note) (isTold : Bool) :
    Prop where
  notes : after.2 = first ++ if isTold then after.1.announce resultProperties else []
  early : ∀ note ∈ first, note.property ∉ resultProperties
  steady : ∀ p ∉ resultProperties, Changes s after.1 p →
    ∃ note ∈ first, note.property = p ∧ note.seen.shown p = after.1.shown p
  quiet : isTold = false → ∀ p ∈ resultProperties, p ≠ .result → after.1.shown p = s.shown p
  onDemand : s.settings.display.isRealTime = false → isTold = true →
    Converter.SameSelection s.converter after.1.converter

theorem Course.tellsResult_eq (h : Course s after first isTold) :
    tellsResult after.2 = isTold := by
  have hfirst : tellsResult first = false := by
    rw [tellsResult, List.any_eq_false]
    intro note hnote
    rw [decide_eq_true_eq]
    exact fun hconverted => h.early note hnote (by rw [hconverted]; decide)
  rw [h.notes, tellsResult_append, hfirst, Bool.false_or]
  cases isTold <;> rfl

theorem Course.heard_eq (h : Course s after first isTold) :
    heard after.2 = first ++ heard (if isTold then after.1.announce resultProperties else []) := by
  rw [h.notes, heard_append h.early]

/-- An operation completes if there is room for the line, or no result is told. -/
theorem Course.completes_iff (h : Course s after first isTold) :
    Completes after.2 ↔ (isTold = true → after.1.isShowable = true) := by
  constructor
  · intro hdone htold
    have hstuck := hdone ⟨.converted, after.1⟩ (by
      rw [h.notes, htold]
      exact List.mem_append_right _ (List.mem_map_of_mem (by decide)))
    simpa [Note.isStuck] using hstuck
  · intro hshowable note hnote
    rw [h.notes] at hnote
    rcases List.mem_append.mp hnote with hfirst | hlast
    · exact isStuck_of_ne fun hconverted => h.early note hfirst (by rw [hconverted]; decide)
    · cases htold : isTold with
      | true =>
        rw [htold] at hlast
        exact completes_announce (hshowable htold) _ note hlast
      | false =>
        rw [htold] at hlast
        cases hlast

theorem Course.hears_of_steady (h : Course s after first isTold) (hp : p ∉ resultProperties)
    (hchanges : Changes s after.1 p) : Hears after p := by
  obtain ⟨note, hnote, hproperty, hseen⟩ := h.steady p hp hchanges
  exact ⟨note, h.heard_eq ▸ List.mem_append_left _ hnote, hproperty, hseen⟩

theorem Course.hears_of_told (h : Course s after first true) (hdone : Completes after.2)
    (hp : p ∈ resultProperties) : Hears after p := by
  have htold : (⟨p, after.1⟩ : Note) ∈ after.2 := by
    rw [h.notes]
    exact List.mem_append_right _ (List.mem_map_of_mem hp)
  exact ⟨_, (heard_eq_self hdone).symm ▸ htold, rfl, rfl⟩

theorem Course.hears_result_iff (h : Course s after first isTold) (hdone : Completes after.2) :
    Hears after .result ↔ isTold = true := by
  constructor
  · rintro ⟨note, hnote, hproperty, -⟩
    by_contra hquiet
    rw [h.heard_eq, if_neg hquiet] at hnote
    rcases List.mem_append.mp hnote with hfirst | hlast
    · exact h.early note hfirst (by rw [hproperty]; decide)
    · cases hlast
  · rintro rfl
    exact h.hears_of_told hdone (by decide)

/-! ## Operations -/

theorem changes_of_same (h : t.shown p = s.shown p) : ¬ Changes s t p :=
  fun hchanges => hchanges.differs h

theorem shown_selection (h : Converter.SameSelection s.converter t.converter)
    (hp : p = .fromCurrency ∨ p = .toCurrency ∨ p = .amount) : t.shown p = s.shown p := by
  rcases hp with rfl | rfl | rfl
  · exact congrArg Shown.currency h.fromCurrency
  · exact congrArg Shown.currency h.toCurrency
  · exact congrArg Shown.number h.amount

/-- Nothing is done and nothing is told. -/
theorem course_nil (s : Session) : Course s (s, []) [] false where
  notes := rfl
  early := fun _ hnote => absurd hnote List.not_mem_nil
  steady := fun _ _ hchanges => absurd rfl hchanges.differs
  quiet := fun _ _ _ _ => rfl
  onDemand := fun _ htold => nomatch htold

/-- A conversion changes the result and nothing else, apart from being under way. -/
theorem shown_convert (hp : p ∉ resultProperties) (hbusy : p ≠ .busy) :
    s.convert.1.shown p = s.shown p := by
  have hselection : Converter.SameSelection s.converter s.convert.1.converter := by
    rw [convert_converter]
    exact (Converter.convert_selection _ _).1
  have hkeypad : s.convert.1.keypad = s.keypad ∧ s.convert.1.panelShown = s.panelShown := by
    cases hbusy : s.isBusy <;> simp [convert, setBusy, hbusy]
  cases p with
  | fromCurrency => exact shown_selection hselection (.inl rfl)
  | toCurrency => exact shown_selection hselection (.inr (.inl rfl))
  | amount => exact shown_selection hselection (.inr (.inr rfl))
  | converted | result | updated | panelError => exact absurd (by decide) hp
  | busy => exact absurd rfl hbusy
  | display | expression | keypadError | keypadMessage => simp only [shown, hkeypad.1]
  | panelShown => simp only [shown, hkeypad.2]

/-- A conversion tells that it is under way, that it no longer is, and its result. -/
theorem exists_convert_notes (s : Session) :
    ∃ begun, (∀ note ∈ begun, note.property = .busy) ∧
      s.convert.2 = (begun ++ [⟨.busy, s.convert.1⟩]) ++ s.convert.1.announce resultProperties := by
  cases hbusy : s.isBusy with
  | true =>
    refine ⟨[], fun note hnote => absurd hnote List.not_mem_nil, ?_⟩
    simp [convert, setBusy, hbusy, announce]
  | false =>
    refine ⟨[⟨.busy, { s with isBusy := true }⟩], ?_, ?_⟩
    · intro note hnote
      rw [List.mem_singleton.mp hnote]
    · simp [convert, setBusy, hbusy, announce]

theorem exists_course_convert (s : Session) : ∃ first, Course s s.convert first true := by
  obtain ⟨begun, hbegun, hnotes⟩ := exists_convert_notes s
  refine ⟨begun ++ [⟨.busy, s.convert.1⟩], hnotes, fun note hnote => ?_, fun p hp hchanges => ?_,
    nofun, fun _ _ => ?_⟩
  · have hproperty : note.property = .busy := by
      rcases List.mem_append.mp hnote with hfirst | hlast
      · exact hbegun note hfirst
      · rw [List.mem_singleton.mp hlast]
    rw [hproperty]
    decide
  · by_cases hbusy : p = .busy
    · subst hbusy
      exact ⟨_, List.mem_append_right _ (List.mem_singleton_self _), rfl, rfl⟩
    · exact absurd hchanges (changes_of_same (shown_convert hp hbusy))
  · rw [convert_converter]
    exact (Converter.convert_selection _ _).1

/-- A refusal shows nothing else than its message. -/
theorem course_reject (s : Session) (fault : Converter.Fault) :
    Course s (s.reject fault) [] true where
  notes := rfl
  early := fun _ hnote => absurd hnote List.not_mem_nil
  steady := fun p hp hchanges => by
    refine absurd ?_ hchanges.differs
    cases p with
    | converted | result | updated | panelError => exact absurd (by decide) hp
    | display | expression | keypadError | keypadMessage | panelShown | fromCurrency | toCurrency
    | amount | busy => rfl
  quiet := nofun
  onDemand := fun _ _ => ⟨rfl, rfl, rfl, rfl, rfl⟩

/-- What is told before an operation goes on, about properties that it then leaves alone. -/
theorem Course.prepend (h : Course t after first isTold)
    (hnotes : ∀ note ∈ notes, note.property ∉ resultProperties)
    (hsteady : ∀ p ∉ resultProperties, t.shown p = s.shown p ∨
      ((∃ note ∈ notes, note.property = p ∧ note.seen.shown p = t.shown p) ∧
        after.1.shown p = t.shown p))
    (hquiet : ∀ p ∈ resultProperties, p ≠ .result → t.shown p = s.shown p)
    (honDemand : s.settings.display.isRealTime = false → isTold = true →
      Converter.SameSelection s.converter after.1.converter) :
    Course s (after.1, notes ++ after.2) (notes ++ first) isTold where
  notes := by rw [h.notes, List.append_assoc]
  early note hnote := (List.mem_append.mp hnote).elim (hnotes note) (h.early note)
  steady p hp hchanges := by
    rcases hsteady p hp with hsame | ⟨⟨note, hnote, hproperty, hseen⟩, hlater⟩
    · -- the property is as it was, so the rest tells of its change
      have hrest : Changes t after.1 p := by
        refine ⟨hsame ▸ hchanges.differs, fun hamount => ?_⟩
        have hamounts : t.converter.amount = s.converter.amount := by
          subst hamount
          exact Shown.number.inj hsame
        rw [hamounts]
        exact hchanges.amount hamount
      obtain ⟨note, hnote, hfound⟩ := h.steady p hp hrest
      exact ⟨note, List.mem_append_right _ hnote, hfound⟩
    · exact ⟨note, List.mem_append_left _ hnote, hproperty, hseen.trans hlater.symm⟩
  quiet htold p hp hline := (h.quiet htold p hp hline).trans (hquiet p hp hline)
  onDemand := honDemand

/-- Another converter differs in some properties of the selection at most. -/
structure Reselects (c d : Converter) (ps : List Property) : Prop where
  selection : ∀ p ∈ ps, p ∉ resultProperties ∧ p ≠ .busy
  fromCurrency : .fromCurrency ∉ ps → d.fromCurrency = c.fromCurrency
  toCurrency : .toCurrency ∉ ps → d.toCurrency = c.toCurrency
  amount : .amount ∉ ps → d.amount = c.amount
  settings : d.settings = c.settings
  cache : d.cache = c.cache
  converted : d.converted = c.converted
  error : d.error = c.error

variable {c : Converter} {ps : List Property}

theorem Reselects.shown_of_notMem (h : Reselects s.converter c ps) (hp : p ∉ resultProperties)
    (hmem : p ∉ ps) : ({ s with converter := c } : Session).shown p = s.shown p := by
  cases p with
  | fromCurrency => exact congrArg Shown.currency (h.fromCurrency hmem)
  | toCurrency => exact congrArg Shown.currency (h.toCurrency hmem)
  | amount => exact congrArg Shown.number (h.amount hmem)
  | converted | result | updated | panelError => exact absurd (by decide) hp
  | display | expression | keypadError | keypadMessage | panelShown | busy => rfl

/-- Of the result another selection changes the line only. -/
theorem Reselects.shown_result (h : Reselects s.converter c ps) (hp : p ∈ resultProperties)
    (hline : p ≠ .result) : ({ s with converter := c } : Session).shown p = s.shown p := by
  cases p with
  | converted => exact congrArg Shown.number h.converted
  | updated => simp only [shown, updatedText, h.cache]
  | panelError => simp only [shown, Converter.hasError, h.error]
  | result => exact absurd rfl hline
  | display | expression | keypadError | keypadMessage | panelShown | fromCurrency | toCurrency
  | amount | busy => exact absurd hp (by decide)

theorem exists_course_afterChange (s : Session) :
    ∃ first, Course s s.afterChange first s.settings.display.isRealTime := by
  unfold afterChange
  split
  · next hreal => exact hreal ▸ exists_course_convert s
  · next hreal => exact ⟨[], eq_false_of_ne_true hreal ▸ course_nil s⟩

theorem shown_afterChange (hp : p ∉ resultProperties) (hbusy : p ≠ .busy) :
    s.afterChange.1.shown p = s.shown p := by
  unfold afterChange
  split
  · exact shown_convert hp hbusy
  · rfl

theorem exists_course_changed (h : Reselects s.converter c ps) :
    ∃ first, Course s (({ s with converter := c } : Session).changed ps) first
      s.settings.display.isRealTime := by
  obtain ⟨first, hcourse⟩ := exists_course_afterChange { s with converter := c }
  have hreal : ({ s with converter := c } : Session).settings.display.isRealTime =
      s.settings.display.isRealTime := by
    change c.settings.display.isRealTime = s.converter.settings.display.isRealTime
    rw [h.settings]
  rw [hreal] at hcourse
  have hnotes : ∀ note ∈ ({ s with converter := c } : Session).announce ps,
      note.property ∉ resultProperties := by
    intro note hnote
    obtain ⟨p, hp, rfl⟩ := List.mem_map.mp hnote
    exact (h.selection p hp).1
  refine ⟨_, hcourse.prepend hnotes ?_ (fun _ => h.shown_result)
    fun hdemand htold => absurd (htold.symm.trans hdemand) (by decide)⟩
  intro p hp
  by_cases hmem : p ∈ ps
  · exact .inr ⟨⟨_, List.mem_map_of_mem hmem, rfl, rfl⟩,
      shown_afterChange hp (h.selection p hmem).2⟩
  · exact .inl (h.shown_of_notMem hp hmem)

/-- A change of one property is told, unless it is none. -/
theorem exists_course_change (h : Reselects s.converter c [p]) {isSame : Bool}
    (hsame : isSame = true → ¬ Changes s { s with converter := c } p) :
    ∃ first isTold, Course s (s.change c isSame p) first isTold := by
  unfold change
  dsimp only
  split
  · next hskip =>
    have hnone := hsame (Bool.and_eq_true_iff.mp hskip).1
    refine ⟨[], false, rfl, fun _ hnote => absurd hnote List.not_mem_nil, ?_,
      fun _ _ => h.shown_result, nofun⟩
    intro q hq hchanges
    by_cases hqp : q = p
    · subst hqp
      exact absurd hchanges hnone
    · exact absurd hchanges (changes_of_same
        (h.shown_of_notMem hq fun hmem => hqp (List.mem_singleton.mp hmem)))
  · obtain ⟨first, hcourse⟩ := exists_course_changed h
    exact ⟨first, _, hcourse⟩

theorem reselects_fromCurrency (c : Converter) (x : Option Currency) :
    Reselects c { c with fromCurrency := x } [.fromCurrency] :=
  ⟨by decide, fun hmem => absurd (by decide) hmem, fun _ => rfl, fun _ => rfl, rfl, rfl, rfl, rfl⟩

theorem reselects_toCurrency (c : Converter) (x : Option Currency) :
    Reselects c { c with toCurrency := x } [.toCurrency] :=
  ⟨by decide, fun _ => rfl, fun hmem => absurd (by decide) hmem, fun _ => rfl, rfl, rfl, rfl, rfl⟩

theorem reselects_amount (c : Converter) (amount : Decimal) :
    Reselects c { c with amount := amount } [.amount] :=
  ⟨by decide, fun _ => rfl, fun _ => rfl, fun hmem => absurd (by decide) hmem, rfl, rfl, rfl, rfl⟩

theorem reselects_swap (c : Converter) : Reselects c c.swap [.fromCurrency, .toCurrency] :=
  ⟨by decide, fun hmem => absurd (by decide) hmem, fun hmem => absurd (by decide) hmem,
    fun _ => rfl, rfl, rfl, rfl, rfl⟩

theorem exists_course_selectFrom (s : Session) (choice : Converter.Choice) :
    ∃ first isTold, Course s (s.selectFrom choice) first isTold := by
  unfold selectFrom
  split
  · exact ⟨_, _, course_reject s _⟩
  · next c hselect =>
    obtain ⟨x, -, rfl⟩ := Converter.selectFrom_eq_ok hselect
    exact exists_course_change (reselects_fromCurrency _ x) fun hsame =>
      changes_of_same (congrArg Shown.currency (of_decide_eq_true hsame))

theorem exists_course_selectTo (s : Session) (choice : Converter.Choice) :
    ∃ first isTold, Course s (s.selectTo choice) first isTold := by
  unfold selectTo
  split
  · exact ⟨_, _, course_reject s _⟩
  · next c hselect =>
    obtain ⟨x, -, rfl⟩ := Converter.selectTo_eq_ok hselect
    exact exists_course_change (reselects_toCurrency _ x) fun hsame =>
      changes_of_same (congrArg Shown.currency (of_decide_eq_true hsame))

/-- Another form of the amount is no other value. -/
theorem exists_course_enterAmount (s : Session) (e : Converter.Entry) :
    ∃ first isTold, Course s (s.enterAmount e) first isTold := by
  unfold enterAmount
  split
  · exact ⟨_, _, course_reject s _⟩
  · next c henter =>
    obtain ⟨amount, -, rfl⟩ := Converter.enterAmount_eq_ok henter
    exact exists_course_change (reselects_amount _ amount) fun hsame hchanges =>
      Bool.false_ne_true ((hchanges.amount rfl).symm.trans hsame)

theorem exists_course_send (s : Session) :
    ∃ first isTold, Course s s.send.2 first isTold := by
  unfold send
  split
  · exact ⟨_, _, course_nil s⟩
  · split
    · exact exists_course_enterAmount s _
    · exact ⟨_, _, course_nil s⟩

/-- Sending does not show or hide the panel. -/
theorem send_panelShown (s : Session) : s.send.2.1.panelShown = s.panelShown := by
  unfold send
  split
  · rfl
  · split
    · unfold enterAmount
      split
      · rfl
      · unfold change
        dsimp only
        split
        · rfl
        · have hafter {t : Session} := shown_afterChange (s := t) (p := .panelShown) (by decide)
            (by decide)
          exact Shown.flag.inj hafter
    · rfl

theorem shown_of_panelShown {isShown : Bool} {p : Property} (hp : p ≠ .panelShown) :
    ({ s with panelShown := isShown } : Session).shown p = s.shown p := by
  cases p <;> first | rfl | exact absurd rfl hp

/-- The panel is shown or hidden, and told of, before an operation that leaves it so. -/
theorem Course.ofPanel {isShown : Bool}
    (h : Course { s with panelShown := isShown } after first isTold)
    (hpanel : after.1.panelShown = isShown) :
    Course s
      (after.1, ({ s with panelShown := isShown } : Session).announce [.panelShown] ++ after.2)
      (({ s with panelShown := isShown } : Session).announce [.panelShown] ++ first) isTold := by
  have hnever : ∀ p ∈ resultProperties, p ≠ .panelShown := by decide
  refine h.prepend (fun note hnote => ?_) (fun p _ => ?_)
    (fun p hp _ => shown_of_panelShown (hnever p hp)) h.onDemand
  · rw [List.mem_singleton.mp hnote]
    exact fun hmem => hnever _ hmem rfl
  · by_cases hproperty : p = .panelShown
    · subst hproperty
      exact .inr ⟨⟨_, List.mem_singleton_self _, rfl, rfl⟩, congrArg Shown.flag hpanel⟩
    · exact .inl (shown_of_panelShown hproperty)

theorem exists_course_togglePanel (s : Session) :
    ∃ first isTold, Course s s.togglePanel first isTold := by
  unfold togglePanel
  dsimp only
  split
  · obtain ⟨first, isTold, hcourse⟩ := exists_course_send { s with panelShown := !s.panelShown }
    exact ⟨_, _, hcourse.ofPanel (send_panelShown _)⟩
  · exact ⟨_, _, (course_nil { s with panelShown := !s.panelShown }).ofPanel rfl⟩

theorem shown_press (key : Keypad.Key) {p : Property} (hp : p ∉ keypadProperties) :
    (s.press key).1.shown p = s.shown p := by
  cases p <;> first | rfl | exact absurd (by decide) hp

/-- Every key is told, whatever it changes. -/
theorem course_press (s : Session) (key : Keypad.Key) :
    Course s (s.press key) (s.press key).2 false where
  notes := (List.append_nil _).symm
  early note hnote := by
    obtain ⟨p, hp, rfl⟩ := List.mem_map.mp hnote
    exact (by decide : ∀ p ∈ keypadProperties, p ∉ resultProperties) p hp
  steady p hp hchanges := by
    by_cases hmem : p ∈ keypadProperties
    · exact ⟨_, List.mem_map_of_mem hmem, rfl, rfl⟩
    · exact absurd (shown_press key hmem) hchanges.differs
  quiet _ p hp _ :=
    shown_press key ((by decide : ∀ p ∈ resultProperties, p ∉ keypadProperties) p hp)
  onDemand := fun _ htold => nomatch htold

theorem exists_course_perform (s : Session) (op : Operation) :
    ∃ first isTold, Course s (s.perform op) first isTold := by
  cases op with
  | selectFrom choice => exact exists_course_selectFrom s choice
  | selectTo choice => exact exists_course_selectTo s choice
  | enterAmount e => exact exists_course_enterAmount s e
  | swap =>
    obtain ⟨first, hcourse⟩ := exists_course_changed (reselects_swap s.converter)
    exact ⟨first, _, hcourse⟩
  | convert =>
    obtain ⟨first, hcourse⟩ := exists_course_convert s
    exact ⟨first, _, hcourse⟩
  | send => exact exists_course_send s
  | togglePanel => exact exists_course_togglePanel s
  | press key => exact ⟨_, _, course_press s key⟩
  | meanwhile now replies =>
    refine ⟨[], false, rfl, fun _ hnote => absurd hnote List.not_mem_nil, fun p _ hchanges => ?_,
      fun _ p _ _ => ?_, nofun⟩
    · exact absurd (by cases p <;> rfl) hchanges.differs
    · cases p <;> rfl

/-! ## The line without a result -/

theorem resultText_of_converter (h : t.converter = s.converter) : t.resultText = s.resultText := by
  simp only [resultText, settings, h]

/-- Another form of the amount shows in the line only if it is a zero with the other sign. -/
theorem flips_of_restated {amount : Decimal} (hfinite : amount.isFinite = true)
    (hsame : amount.sameValue s.converter.amount = true) (hclean : s.converter.error = none)
    (hconverter : t.converter = { s.converter with amount := amount })
    (hchanges : t.resultText ≠ s.resultText) : Flips s t := by
  have hamount : t.converter.amount = amount := by rw [hconverter]
  have hplaces : amount.fixedPlaces 2 ≠ s.converter.amount.fixedPlaces 2 := by
    intro hplaces
    refine hchanges ?_
    simp only [resultText, settings, hconverter, hplaces]
  by_contra hflips
  refine hplaces (Decimal.fixedPlaces_congr hfinite hsame (fun hzero => ?_) 2)
  by_contra hsign
  have hbefore : s.converter.amount.isZero = true :=
    (Decimal.isZero_eq_of_sameValue hfinite hsame).symm.trans hzero
  exact hflips ⟨hbefore, hamount ▸ hzero, hamount ▸ hsign, hclean⟩

theorem hears_result_of_realTime {op : Operation} (hreal : s.settings.display.isRealTime = true)
    (hcourse : Course s (s.perform op) first isTold) (hdone : Completes (s.perform op).2)
    (h : Changes s (s.perform op).1 .result) (hflips : ¬ Flips s (s.perform op).1) :
    Hears (s.perform op) .result := by
  rw [hcourse.hears_result_iff hdone, ← hcourse.tellsResult_eq]
  have hline : (s.perform op).1.resultText ≠ s.resultText :=
    fun hsame => h.differs (congrArg Shown.text hsame)
  cases step_of_perform hreal op with
  | quiet hconverter hnotes => exact absurd (resultText_of_converter hconverter) hline
  | restated amount hfinite hsame hclean hconverter hnotes =>
    exact absurd (flips_of_restated hfinite hsame hclean hconverter hline) hflips
  | refused message hconverter hnotes => exact hnotes
  | converted c hselects hconverter hnotes => exact hnotes

/-- **Notices**: whatever a session and an operation are, each property that changes is told with
the value that it ends with, except the line of the result: that is told exactly with a result. -/
theorem noticeRules_perform (s : Session) (op : Operation) : NoticeRules s (s.perform op) := by
  obtain ⟨first, isTold, hcourse⟩ := exists_course_perform s op
  have htells := hcourse.tellsResult_eq
  refine ⟨fun p hp hchanges => hcourse.hears_of_steady hp hchanges,
    fun hdone p hline hchanges => ?_, fun hdone => ?_,
    fun hreal => hears_result_of_realTime hreal hcourse, fun hdemand hselection => ?_, ?_⟩
  · by_cases hp : p ∈ resultProperties
    · cases htold : isTold with
      | true => exact (htold ▸ hcourse).hears_of_told hdone hp
      | false => exact absurd (hcourse.quiet htold p hp hline) hchanges.differs
    · exact hcourse.hears_of_steady hp hchanges
  · rw [htells]
    exact hcourse.hears_result_iff hdone
  · have hquiet : isTold = false := by
      rw [← Bool.not_eq_true]
      intro htold
      have hsame := hcourse.onDemand hdemand htold
      rcases hselection with hchanges | hchanges | hchanges
      · exact hchanges.differs (shown_selection hsame (.inl rfl))
      · exact hchanges.differs (shown_selection hsame (.inr (.inl rfl)))
      · exact hchanges.differs (shown_selection hsame (.inr (.inr rfl)))
    have hdone : Completes (s.perform op).2 :=
      hcourse.completes_iff.mpr fun htold => absurd (htold.symm.trans hquiet) (by decide)
    refine ⟨htells.trans hquiet, ?_⟩
    rw [hcourse.hears_result_iff hdone, hquiet]
    exact Bool.false_ne_true
  · rw [hcourse.completes_iff, htells, Classical.not_imp, Bool.not_eq_true]

-- The exception is real: a zero gets another sign, the line shows it, and nothing is told.
example :
    (unreached.run [.enterAmount (.ofText ['0'])]).1.resultText =
        "0.00 USD = 0.00000 EUR".toList ∧
      (unreached.run [.enterAmount (.ofText ['0']),
        .enterAmount (.ofText "-0".toList)]).1.resultText = "-0.00 USD = 0.00000 EUR".toList ∧
      ((unreached.run [.enterAmount (.ofText ['0'])]).1.perform
        (.enterAmount (.ofText "-0".toList))).2 = [] := by
  decide +kernel

/-- Two dollars are entered and nothing is converted: the line shows the new amount next to the old
result, but only the amount is told. -/
theorem not_hears_result_of_onDemand :
    Session.ofSettings Console.demandSettings Console.demandSession.outside =
        .ok Console.demandSession ∧
      Changes Console.demandSession
        (Console.demandSession.perform (.enterAmount (.ofText ['2']))).1 .result ∧
      ¬ Hears (Console.demandSession.perform (.enterAmount (.ofText ['2']))) .result := by
  have hnotes : (Console.demandSession.perform (.enterAmount (.ofText ['2']))).2.map
      Note.property = [.amount] := by decide +kernel
  refine ⟨Console.ofSettings_demandSettings, ⟨by decide +kernel, nofun⟩, ?_⟩
  rintro ⟨note, hnote, hproperty, -⟩
  have htold := List.mem_map_of_mem (f := Note.property) ((List.takeWhile_sublist _).subset hnote)
  rw [hnotes, hproperty] at htold
  exact absurd htold (by decide)

end Cambio.Session
