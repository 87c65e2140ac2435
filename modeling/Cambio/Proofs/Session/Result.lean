import Cambio.Console
import Cambio.Proofs.Conversion.Convert
import Cambio.Proofs.Decimal.Value
import Cambio.Proofs.Session.Step

/-!
# The result that is shown

While no new rates come and conversions run in real time, a session shows the right result or an
error, from the first result that it tells on. Before that it shows the zero that it began with.

## Main definitions

- `Converter.IsRight` — the converted amount is the amount at the rate of the pair
- `Converter.IsOffline`, `Session.IsOfflineDuring` — no fetch brings rates
- `Converter.Restates` — the amount in another form
- `Session.Shows` — what is shown, given whether a result was told

## Main statements

- `Session.Shows.step`, `Session.Shows.run` — what is shown after an operation and after a run
- `Session.isRight_run_iff` — when the right result is shown, over any rates
- `Session.isRight_iff_tellsResult` — the same for a new session
- `Session.exchange_eq_run` — the command for an exchange is three operations
-/

namespace Cambio

namespace Converter

/-- Both currencies are selected, and the converted amount is the amount at the rate between
    them. -/
def IsRight (c : Converter) : Prop :=
  ∃ job r product, c.job? = some job ∧ (c.resolve job.fromCode job.toCode).1 = .ok r ∧
    job.amount.mul r.rate = .ok product ∧ c.converted.sameValue product = true

/-- Every fetch that is needed for an offered currency ends in a fault. -/
def IsOffline (c : Converter) (o : Outside) : Prop :=
  ∀ currency ∈ c.catalog, c.NeedsRates currency.code o.now →
    ∃ fault, (c.fetch currency.code o).1 = .fault fault

variable {c d : Converter} {job : Job} {o : Outside}

/-! ## Conversions without new rates -/

theorem job?_congr (h : SameSelection c d) : d.job? = c.job? := by
  simp only [job?, h.fromCurrency, h.toCurrency, h.amount]

theorem mem_catalog_of_job? (hoffered : c.IsOffered) (hjob : c.job? = some job) :
    ∃ currency ∈ c.catalog, job.fromCode = currency.code := by
  obtain ⟨fromCurrency, _, hfrom, _, rfl⟩ := job?_eq_some_iff.mp hjob
  exact ⟨fromCurrency, hoffered.fromCurrency fromCurrency hfrom, rfl⟩

theorem isFinite_rate (husable : c.cache.IsUsable) {fromCode toCode : String} {r : Resolution}
    (h : (c.resolve fromCode toCode).1 = .ok r) : r.rate.isFinite = true := by
  have hbounded := isBounded_resolve husable fromCode toCode
  rw [h] at hbounded
  cases hbounded with
  | found hfinite => exact hfinite

/-- A conversion that ends without an error has the right result. -/
theorem Ended.isRight (h : Ended c job) (husable : c.cache.IsUsable) (hjob : c.job? = some job)
    (hamount : job.amount.isFinite = true) (hclean : c.error = none) : c.IsRight := by
  cases h with
  | exact r hresolve hfound hproduct herror =>
    have hbounded := Decimal.isBounded_mul hamount (isFinite_rate husable hresolve)
    rw [hproduct] at hbounded
    obtain ⟨hfinite⟩ := hbounded
    exact ⟨job, r, c.converted, hjob, hresolve, hproduct, Decimal.sameValue_refl hfinite⟩
  | stopgap r hresolve hmissing hproduct herror =>
    rw [hclean] at herror
    cases herror
  | overflow hoverflow hconverted herror =>
    rw [hclean] at herror
    cases herror

/-- A conversion without new rates changes neither the selection nor the tables, and ends with the
    right result or an error. -/
theorem convert_of_isOffline (husable : c.cache.IsUsable) (hoffered : c.IsOffered)
    (hamount : c.amount.isFinite = true) (hoffline : c.IsOffline o) :
    SameSelection c (c.convert o).1 ∧ (c.convert o).1.cache.slots = c.cache.slots ∧
      ((c.convert o).1.error = none → (c.convert o).1.IsRight) := by
  cases hjob : c.job? with
  | none =>
    rw [convert_of_unselected hjob]
    exact ⟨⟨rfl, rfl, rfl, rfl, rfl⟩, rfl, fun hclean => by cases hclean⟩
  | some job =>
    have hfinite : job.amount.isFinite = true := by rw [job_amount hjob, hamount]
    by_cases hneeds : c.NeedsRates job.fromCode o.now
    · obtain ⟨currency, hmem, hcode⟩ := mem_catalog_of_job? hoffered hjob
      obtain ⟨fault, hfault⟩ : ∃ fault, (c.fetch job.fromCode o).1 = .fault fault := by
        rw [hcode] at hneeds ⊢
        exact hoffline currency hmem hneeds
      -- a fault changes the client alone, so the conversion ends over the tables of before
      obtain ⟨after, hafter⟩ : ∃ after : Converter,
          after = { c with client := (c.fetch job.fromCode o).2.1 } := ⟨_, rfl⟩
      have hrefresh := refresh_of_fault hfault
      rw [← hafter] at hrefresh
      have hcache : after.cache = c.cache := by rw [hafter]
      have hselection : SameSelection c after := by
        rw [hafter]
        exact ⟨rfl, rfl, rfl, rfl, rfl⟩
      have husable' : after.cache.IsUsable := by rw [hcache]; exact husable
      have hkeeps := keeps_finish after job
      have hended := ended_finish husable' hfinite
      have hsame := hselection.trans hkeeps.toSameSelection
      rw [convert_of_needsRates hjob hneeds (.inr ⟨fault, by rw [hrefresh]⟩), hrefresh]
      dsimp only
      refine ⟨hsame, by rw [hkeeps.slots, hcache], ?_⟩
      exact hended.isRight (hkeeps.usable husable') ((job?_congr hsame).trans hjob) hfinite
    · have hkeeps := keeps_finish c job
      rw [convert_of_rested hjob hneeds]
      dsimp only
      refine ⟨hkeeps.toSameSelection, hkeeps.slots, ?_⟩
      exact (ended_finish husable hfinite).isRight (hkeeps.usable husable)
        ((job?_congr hkeeps.toSameSelection).trans hjob) hfinite

/-! ## Amounts in another form -/

/-- One converter shows what another shows, perhaps with another form of the amount. -/
structure Restates (c d : Converter) : Prop where
  settings : d.settings = c.settings
  slots : d.cache.slots = c.cache.slots
  fromCurrency : d.fromCurrency = c.fromCurrency
  toCurrency : d.toCurrency = c.toCurrency
  converted : d.converted = c.converted
  amount : d.amount.sameValue c.amount = true

theorem Restates.symm (h : Restates c d) (hfinite : c.amount.isFinite = true) : Restates d c :=
  ⟨h.settings.symm, h.slots.symm, h.fromCurrency.symm, h.toCurrency.symm, h.converted.symm,
    Decimal.sameValue_symm ((Decimal.isFinite_eq_of_sameValue h.amount).trans hfinite) h.amount⟩

/-- What is right stays right when the amount takes another form. -/
theorem IsRight.restates (hright : c.IsRight) (h : Restates c d) (husable : c.cache.IsUsable)
    (hfinite : c.amount.isFinite = true) : d.IsRight := by
  obtain ⟨job, r, product, hjob, hresolve, hproduct, hsame⟩ := hright
  have hamount : job.amount = c.amount := job_amount hjob
  have hrate : r.rate.isFinite = true := isFinite_rate husable hresolve
  have hjob' : d.job? = some { job with amount := d.amount } := by
    obtain ⟨fromCurrency, toCurrency, hfrom, hto, hselected⟩ := job?_eq_some_iff.mp hjob
    refine job?_eq_some_iff.mpr ⟨fromCurrency, toCurrency, h.fromCurrency.trans hfrom,
      h.toCurrency.trans hto, ?_⟩
    rw [hselected]
  have hresolve' : (d.resolve job.fromCode job.toCode).1 = .ok r :=
    (resolve_fst_congr h.settings h.slots _ _).trans hresolve
  -- the converted amount is the product for the old form, and has to be that for the new one
  have hproducts := Decimal.mul_congr hfinite hrate (h.symm hfinite).amount
  rw [← hamount, hproduct] at hproducts
  cases hproducts' : d.amount.mul r.rate with
  | error signal =>
    rw [hproducts'] at hproducts
    cases hproducts
  | ok product' =>
    rw [hproducts'] at hproducts
    obtain ⟨hforms⟩ := hproducts
    have hbounded := Decimal.isBounded_mul (hamount ▸ hfinite) hrate
    rw [hproduct] at hbounded
    obtain ⟨hfinite'⟩ := hbounded
    refine ⟨{ job with amount := d.amount }, r, product', hjob', hresolve', hproducts', ?_⟩
    rw [h.converted]
    exact Decimal.sameValue_trans hfinite' hsame hforms

end Converter

namespace Session

open Converter (IsRight IsOffered IsOffline Restates Selects)

/-! ## What is shown -/

/-- What a session shows that began with a converter, given whether it told a result. -/
structure Shows (start : Converter) (told : Bool) (c : Converter) : Prop where
  settings : c.settings = start.settings
  slots : c.cache.slots = start.cache.slots
  offered : c.IsOffered
  finite : c.amount.isFinite = true
  /-- Until a result is told the beginning is shown. -/
  untold : told = false → c.error = none ∧ Restates start c
  /-- From then on the right result is shown, or an error. -/
  right : told = true → c.error = none → c.IsRight

variable {start : Converter} {told : Bool} {s : Session} {after : Session × List Note}

theorem Shows.usable (h : Shows start told s.converter) (husable : start.cache.IsUsable) :
    s.converter.cache.IsUsable :=
  husable.of_slots_eq h.slots

theorem Shows.restated (h : Shows start told s.converter) (husable : start.cache.IsUsable)
    {amount : Decimal} (hfinite : amount.isFinite = true)
    (hsame : amount.sameValue s.converter.amount = true) (hclean : s.converter.error = none) :
    Shows start told { s.converter with amount := amount } where
  settings := h.settings
  slots := h.slots
  offered := ⟨h.offered.fromCurrency, h.offered.toCurrency⟩
  finite := hfinite
  untold huntold := by
    obtain ⟨hclean, hrestates⟩ := h.untold huntold
    exact ⟨hclean, h.settings, h.slots, hrestates.fromCurrency, hrestates.toCurrency,
      hrestates.converted, Decimal.sameValue_trans h.finite hsame hrestates.amount⟩
  right htold _ :=
    (h.right htold hclean).restates ⟨rfl, rfl, rfl, rfl, rfl, hsame⟩ (h.usable husable) h.finite

/-- The fetches that are needed do not depend on the selection. -/
theorem isOffline_of_selects {c d : Converter} {o : Outside} (hselects : Selects c d)
    (h : c.IsOffline o) : d.IsOffline o := by
  intro currency hmem hneeds
  unfold Converter.NeedsRates at hneeds
  unfold Converter.fetch
  rw [Converter.catalog, hselects.settings] at hmem
  rw [hselects.cache, hselects.settings] at hneeds
  rw [hselects.client, Converter.catalog, hselects.settings]
  exact h currency hmem hneeds

theorem Shows.converted (h : Shows start told s.converter) (husable : start.cache.IsUsable)
    (hoffline : s.converter.IsOffline s.outside) {c : Converter}
    (hselects : Selects s.converter c) : Shows start true (c.convert s.outside).1 := by
  have husable' : c.cache.IsUsable := by
    rw [hselects.cache]
    exact h.usable husable
  obtain ⟨hselection, hslots, hright⟩ := Converter.convert_of_isOffline husable'
    (hselects.offered h.offered) (hselects.finite h.finite) (isOffline_of_selects hselects hoffline)
  have hoffered := hselects.offered h.offered
  refine ⟨?_, ?_, ⟨?_, ?_⟩, ?_, fun htold => absurd htold.symm Bool.false_ne_true, fun _ => hright⟩
  · rw [hselection.settings, hselects.settings, h.settings]
  · rw [hslots, hselects.cache, h.slots]
  · rw [hselection.fromCurrency, Converter.catalog, hselection.settings]
    exact hoffered.fromCurrency
  · rw [hselection.toCurrency, Converter.catalog, hselection.settings]
    exact hoffered.toCurrency
  · rw [hselection.amount]
    exact hselects.finite h.finite

/-- What is shown after an operation. -/
theorem Shows.step (h : Shows start told s.converter) (husable : start.cache.IsUsable)
    (hoffline : s.converter.IsOffline s.outside) (hstep : Step s after) :
    Shows start (told || tellsResult after.2) after.1.converter := by
  cases hstep with
  | quiet hconverter hnotes =>
    rw [hconverter, hnotes, Bool.or_false]
    exact h
  | restated amount hfinite hsame hclean hconverter hnotes =>
    rw [hconverter, hnotes, Bool.or_false]
    exact h.restated husable hfinite hsame hclean
  | refused message hconverter hnotes =>
    rw [hconverter, hnotes, Bool.or_true]
    exact ⟨h.settings, h.slots, ⟨h.offered.fromCurrency, h.offered.toCurrency⟩, h.finite,
      fun htold => absurd htold.symm Bool.false_ne_true, fun _ hclean => by cases hclean⟩
  | converted c hselects hconverter hnotes =>
    -- whatever was shown before, the conversion replaces it
    rw [hconverter, hnotes, Bool.or_true]
    exact h.converted husable hoffline hselects

/-- Whenever something is asked of a session during a run, no fetch brings rates. -/
def IsOfflineDuring (s : Session) : List Operation → Prop
  | [] => True
  | op :: ops => s.converter.IsOffline s.outside ∧ IsOfflineDuring (s.perform op).1 ops

/-- What is shown after a run. -/
theorem Shows.run (h : Shows start told s.converter) (husable : start.cache.IsUsable)
    (hreal : start.settings.display.isRealTime = true) {ops : List Operation}
    (hoffline : s.IsOfflineDuring ops) :
    Shows start (told || tellsResult (s.run ops).2) (s.run ops).1.converter := by
  -- a result that was told before the run counts as well, so `told` varies
  induction ops generalizing s told with
  | nil => simpa [Session.run, tellsResult] using h
  | cons op ops ih =>
    obtain ⟨hnow, hlater⟩ := hoffline
    have hreal' : s.settings.display.isRealTime = true := by
      rw [Session.settings, h.settings]
      exact hreal
    have hnext := h.step husable hnow (step_of_perform hreal' op)
    have hrest := ih hnext hlater
    rw [Session.run, tellsResult_append, ← Bool.or_assoc]
    exact hrest

/-- Without an error the right result is shown exactly if a result was told, or if the session
    began with the right one. -/
theorem Shows.isRight_iff (h : Shows start told s.converter) (husable : start.cache.IsUsable)
    (hclean : s.converter.error = none) :
    s.converter.IsRight ↔ told = true ∨ start.IsRight := by
  cases told with
  | true => exact iff_of_true (h.right rfl hclean) (.inl rfl)
  | false =>
    obtain ⟨_, hrestates⟩ := h.untold rfl
    have hfinite : start.amount.isFinite = true :=
      (Decimal.isFinite_eq_of_sameValue hrestates.amount).symm.trans h.finite
    constructor
    · intro hright
      exact .inr (hright.restates (hrestates.symm hfinite) (h.usable husable) h.finite)
    · rintro (⟨⟨⟩⟩ | hright)
      exact hright.restates hrestates husable hfinite

end Session

/-! ## At the beginning -/

namespace Converter

/-- The rates that are known before any others, with the rate of their own base. -/
def baselineTable : RateTable :=
  RateCache.withIdentity RateTable.baselineBase (RateTable.capitalized RateTable.baseline)

theorem baselineCache_slots (now : Moment) :
    (baselineCache now).slots = [(Text.upperString RateTable.baselineBase, ⟨baselineTable, now⟩)] :=
  rfl

theorem isUsable_baselineCache (now : Moment) : (baselineCache now).IsUsable :=
  RateCache.IsUsable.seed (fun _ hentry => absurd hentry List.not_mem_nil) (by decide) now

/-- One unit does not convert to nothing at this rate. -/
def buysSome (rate : Decimal) : Bool :=
  match Decimal.one.mul rate with
  | .ok product => !Decimal.zero.sameValue product
  | .error _ => true

theorem buysSome_baseline : ∀ rate ∈ baselineTable, buysSome rate.2 = true := by
  decide

theorem buysSome_quotients : ∀ divisor ∈ baselineTable, ∀ dividend ∈ baselineTable,
    (dividend.2.div divisor.2).toOption.all buysSome = true := by
  decide +kernel

/-- Every rate that is resolved over the baseline buys something. -/
theorem buysSome_resolve {c : Converter} {now : Moment} {fromCode toCode : String} {r : Resolution}
    (hcache : c.cache = baselineCache now) (h : (c.resolve fromCode toCode).1 = .ok r) :
    buysSome r.rate = true := by
  have hone : buysSome .one = true := by decide
  have htable {bases : List String} {entry : String × RateTable}
      (hentry : entry ∈ (c.cache.lookUpAll bases).1) : entry.2 = baselineTable := by
    obtain ⟨slot, hslot, hrates⟩ := RateCache.mem_slots_of_mem_lookUpAll hentry
    rw [hcache, baselineCache_slots] at hslot
    rw [hrates, List.mem_singleton.mp hslot]
  by_cases hsame : Text.upperString fromCode = Text.upperString toCode
  · rw [resolve_fst_of_eq hsame] at h
    cases h
    exact hone
  · rw [resolve_fst_of_ne hsame] at h
    refine Resolution.rate_of_ofBook (p := fun rate => buysSome rate = true) hone ?_ ?_ h
    · intro entry hentry rate hrate
      rw [htable hentry] at hrate
      exact buysSome_baseline rate hrate
    · intro entry hentry divisor hdivisor dividend hdividend rate hrate
      rw [htable hentry] at hdivisor hdividend
      have hquotient := buysSome_quotients divisor hdivisor dividend hdividend
      rw [hrate] at hquotient
      exact hquotient

/-- The amount of zero that is shown at the beginning is never right. -/
theorem not_isRight_ofSettings (settings : Settings) (client : Client) (store : Option Path)
    (now : Moment) : ¬ (ofSettings settings client store (baselineCache now)).IsRight := by
  rintro ⟨job, r, product, hjob, hresolve, hproduct, hsame⟩
  have hamount : job.amount = .one := job_amount hjob
  have hbuys : buysSome r.rate = true := buysSome_resolve rfl hresolve
  have hzero : Decimal.zero.sameValue product = true := hsame
  rw [hamount] at hproduct
  simp only [buysSome, hproduct, hzero, Bool.not_true] at hbuys
  cases hbuys

/-- What is selected at the beginning is offered. -/
theorem isOffered_ofSettings (settings : Settings) (client : Client) (store : Option Path)
    (cache : RateCache) : (ofSettings settings client store cache).IsOffered := by
  have hmem {code : String} {n : Nat} {x : Currency}
      (h : (offer? (Currency.catalog settings.service.supported) code).or
        (Currency.catalog settings.service.supported)[n]? = some x) :
      x ∈ Currency.catalog settings.service.supported := by
    rcases Option.or_eq_some_iff.mp h with hwanted | ⟨_, hother⟩
    · exact mem_of_offer? hwanted
    · exact List.mem_of_getElem? hother
  exact ⟨fun x hx => hmem hx, fun x hx => hmem hx⟩

end Converter

namespace Session

/-- What is shown at the beginning. -/
theorem shows_ofSettings (settings : Settings) (client : Client) (store : Option Path)
    (cache : RateCache) :
    Shows (.ofSettings settings client store cache) false
      (.ofSettings settings client store cache) where
  settings := rfl
  slots := rfl
  offered := Converter.isOffered_ofSettings settings client store cache
  finite := rfl
  untold _ := ⟨rfl, rfl, rfl, rfl, rfl, rfl, Decimal.sameValue_refl rfl⟩
  right htold := absurd htold Bool.false_ne_true

/-- After any run of a session that began with usable rates, without new rates and with conversions
    in real time, what is shown without an error is right exactly if a result was told or the
    session began with the right one. -/
theorem isRight_run_iff {settings : Settings} {client : Client} {store : Option Path}
    {cache : RateCache} {s : Session}
    (hfresh : s.converter = .ofSettings settings client store cache) (husable : cache.IsUsable)
    (hreal : settings.display.isRealTime = true) {ops : List Operation}
    (hoffline : s.IsOfflineDuring ops) (hclean : (s.run ops).1.converter.hasError = false) :
    (s.run ops).1.converter.IsRight ↔ tellsResult (s.run ops).2 = true ∨ s.converter.IsRight := by
  have hstart : Shows s.converter false s.converter := by
    rw [hfresh]
    exact shows_ofSettings settings client store cache
  have husable' : s.converter.cache.IsUsable := by rw [hfresh]; exact husable
  have hreal' : s.converter.settings.display.isRealTime = true := by rw [hfresh]; exact hreal
  have herror : (s.run ops).1.converter.error = none := by
    simpa [Converter.hasError] using hclean
  have hshows := hstart.run husable' hreal' hoffline
  rw [Bool.false_or] at hshows
  exact hshows.isRight_iff husable' herror

/-- A new session has a converter at the start, over the baseline. -/
theorem converter_of_ofSettings {settings : Settings} {o : Outside} {s : Session}
    (h : Session.ofSettings settings o = .ok s) :
    ∃ config, s.converter = .ofSettings settings (.ofConfig config) (some settings.rates.path)
      (Converter.baselineCache o.now) := by
  obtain ⟨config, -, hs⟩ := Except.map_eq_ok_iff.mp h
  exact ⟨config, by rw [← hs]⟩

/-! ## On the console -/

variable {s : Session} {after : Session × List Note}

/-- No operation changes the settings. -/
theorem Step.settings (h : Step s after) : after.1.settings = s.settings := by
  unfold Session.settings
  cases h with
  | quiet hconverter => rw [hconverter]
  | restated amount hfinite hsame hclean hconverter => rw [hconverter]
  | refused message hconverter =>
    rw [hconverter]
    rfl
  | converted c hselects hconverter =>
    rw [hconverter, Converter.convert_settings, hselects.settings]

theorem run_settings (hreal : s.settings.display.isRealTime = true) (ops : List Operation) :
    (s.run ops).1.settings = s.settings := by
  induction ops generalizing s with
  | nil => rfl
  | cons op ops ih =>
    have hstep := (step_of_perform hreal op).settings
    rw [Session.run, ih (by rw [hstep]; exact hreal), hstep]

/-- What the command for an exchange asks of a session. -/
def exchanging (fromCurrency toCurrency : Currency) (amount : List Char) : List Operation :=
  [.selectFrom (.currency fromCurrency), .selectTo (.currency toCurrency),
    .enterAmount (.ofText amount)]

/-- With conversions in real time, the command for an exchange shows what is shown after its three
    operations. -/
theorem exchange_eq_run (hreal : s.settings.display.isRealTime = true)
    {amount fromCode toCode : List Char} {x y : Currency}
    (hfrom : s.converter.currency (String.ofList fromCode) = .ok x)
    (hto : s.converter.currency (String.ofList toCode) = .ok y) :
    Console.exchange s amount fromCode toCode =
      ((s.run (exchanging x y amount)).1, Console.panelLines (s.run (exchanging x y amount)).1) := by
  have hpair : Console.pairOf s fromCode toCode = .ok (x, y) := by
    simp only [Console.pairOf, hfrom, hto]
    rfl
  have hthree : (((s.selectFrom (.currency x)).1.selectTo (.currency y)).1.enterAmount
      (.ofText amount)).1 = (s.run (exchanging x y amount)).1 := rfl
  have hconverted : (Console.convertIfNeeded (s.run (exchanging x y amount)).1).1 =
      (s.run (exchanging x y amount)).1 := by
    rw [Console.convertIfNeeded, run_settings hreal, if_pos hreal]
  simp only [Console.exchange, Console.run, Console.course, Console.Course.ofExchange, hpair,
    Console.Course.answer, List.nil_append, hthree, hconverted]

/-! ## New sessions -/

/-- **Results**: after any run of a new session, without new rates and with conversions in real
    time, what is shown without an error is right exactly if a result was told. The command for an
    exchange adds three operations to the run and shows what is shown then. -/
theorem isRight_iff_tellsResult {settings : Settings} {o : Outside} {s : Session}
    (hfresh : Session.ofSettings settings o = .ok s)
    (hreal : settings.display.isRealTime = true) (ops : List Operation)
    (hoffline : s.IsOfflineDuring ops) :
    ((s.run ops).1.converter.hasError = false →
      ((s.run ops).1.converter.IsRight ↔ tellsResult (s.run ops).2 = true)) ∧
    ∀ amount fromCode toCode x y,
      (s.run ops).1.converter.currency (String.ofList fromCode) = .ok x →
      (s.run ops).1.converter.currency (String.ofList toCode) = .ok y →
        Console.exchange (s.run ops).1 amount fromCode toCode =
          ((s.run (ops ++ exchanging x y amount)).1,
            Console.panelLines (s.run (ops ++ exchanging x y amount)).1) := by
  obtain ⟨config, hconverter⟩ := converter_of_ofSettings hfresh
  have hreal' : s.settings.display.isRealTime = true := by
    rw [Session.settings, hconverter]
    exact hreal
  constructor
  · intro hclean
    have hnever : ¬ s.converter.IsRight := by
      rw [hconverter]
      exact Converter.not_isRight_ofSettings _ _ _ _
    rw [isRight_run_iff hconverter (Converter.isUsable_baselineCache _) hreal hoffline hclean,
      or_iff_left hnever]
  · intro amount fromCode toCode x y hfrom hto
    have hreal'' : (s.run ops).1.settings.display.isRealTime = true := by
      rw [run_settings hreal']
      exact hreal'
    rw [exchange_eq_run hreal'' hfrom hto, run_append]

/-- Settings for dollars and euros, without retries. -/
def pairSettings : Settings :=
  { Settings.default with
    service := ⟨{ Settings.Service.default.client with maxRetries := 0 }, ["USD", "EUR"]⟩ }

/-- A new session with these settings, of which the rate service cannot be reached. -/
def unreached : Session where
  keypad := .fresh
  converter := .ofSettings pairSettings (.ofConfig pairSettings.service.client)
    (some pairSettings.rates.path) (Converter.baselineCache .earliest)
  panelShown := false
  isBusy := false
  outside := ⟨⟨.earliest, [], [], []⟩, .empty⟩

theorem ofSettings_unreached :
    Session.ofSettings pairSettings unreached.outside = .ok unreached := by
  decide +kernel

theorem isOffline_unreached : unreached.converter.IsOffline unreached.outside := by
  have hfetch : ∀ currency ∈ unreached.converter.catalog,
      (unreached.converter.fetch currency.code unreached.outside).1 =
        .fault (.unreachable "offline") := by
    decide +kernel
  exact fun currency hmem _ => ⟨_, hfetch currency hmem⟩

/-- Two dollars are converted over the baseline. -/
theorem isRight_iff_tellsResult_two :
    Session.ofSettings pairSettings unreached.outside = .ok unreached ∧
      pairSettings.display.isRealTime = true ∧
      unreached.IsOfflineDuring [.enterAmount (.ofText ['2'])] ∧
      (unreached.run [.enterAmount (.ofText ['2'])]).1.converter.hasError = false ∧
      (unreached.run [.enterAmount (.ofText ['2'])]).1.converter.IsRight := by
  have hoffline : unreached.IsOfflineDuring [.enterAmount (.ofText ['2'])] :=
    ⟨isOffline_unreached, trivial⟩
  have hclean : (unreached.run [.enterAmount (.ofText ['2'])]).1.converter.hasError = false := by
    decide +kernel
  have htold : tellsResult (unreached.run [.enterAmount (.ofText ['2'])]).2 = true := by
    decide +kernel
  have hright := (isRight_iff_tellsResult ofSettings_unreached rfl _ hoffline).1 hclean
  exact ⟨ofSettings_unreached, rfl, hoffline, hclean, hright.mpr htold⟩

/-- The amount that is there at the beginning is entered again: the zero of the beginning is shown
    as its result. -/
theorem not_isRight_of_same_amount :
    Session.ofSettings pairSettings unreached.outside = .ok unreached ∧
      pairSettings.display.isRealTime = true ∧
      unreached.IsOfflineDuring [.enterAmount (.ofText ['1'])] ∧
      (unreached.run [.enterAmount (.ofText ['1'])]).1.converter.hasError = false ∧
      ¬ (unreached.run [.enterAmount (.ofText ['1'])]).1.converter.IsRight ∧
      (unreached.run [.enterAmount (.ofText ['1'])]).1.resultText =
        "1.00 USD = 0.00000 EUR".toList := by
  have hsame : (unreached.run [.enterAmount (.ofText ['1'])]).1 = unreached := by decide +kernel
  rw [hsame]
  exact ⟨ofSettings_unreached, rfl, ⟨isOffline_unreached, trivial⟩, rfl,
    Converter.not_isRight_ofSettings _ _ _ _, by decide +kernel⟩

end Session

end Cambio
