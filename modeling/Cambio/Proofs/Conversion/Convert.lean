import Cambio.Proofs.Conversion.Resolve

/-!
# Conversions

A conversion fetches rates exactly if those of its base currency are missing or too old, and ends
with the amount at the rate that the tables then give. A fault of the rate service leaves the tables
and the rate file as they were.

## Main definitions

- `Converter.NeedsRates` — the rates of a base currency are missing or too old
- `Converter.HasConverted`, `Converter.ConvertSpec` — all that a conversion does
- `Converter.SameView` — the selection and the result stay as they are

## Main statements

- `Converter.convert_spec` — a conversion over usable rates
-/

namespace Cambio.Converter

variable {c : Converter} {o : Outside} {job : Job} {base : String}

/-- The rates of a base currency are missing, or older than they may be. -/
def NeedsRates (c : Converter) (base : String) (now : Moment) : Prop :=
  c.cache.slot? base = none ∨
    ∃ slot, c.cache.slot? base = some slot ∧
      c.settings.rates.expirationMinutes * 60000000 < now.microsSince slot.fetchedAt

theorem isStale_iff_needsRates {now : Moment} :
    c.isStale job now = true ↔ c.NeedsRates job.fromCode now := by
  unfold isStale RateCache.isStale NeedsRates Settings.Rates.maxAge
  cases c.cache.slot? job.fromCode with
  | none => simp
  | some slot => simp

/-- What the rate service answers to a fetch of the rates of a base currency, and the client and the
    channel after it. -/
def fetch (c : Converter) (base : String) (o : Outside) :
    Service.Result RateTable × Client × Channel :=
  c.client.rates (Text.upperString base) (c.catalog.map Currency.code) o.channel

/-- What a conversion of a pair does. -/
structure HasConverted (c : Converter) (o : Outside) (job : Job) (d : Converter) (p : Outside) :
    Prop where
  /-- Rates that are neither missing nor too old are not fetched. -/
  rested : ¬ c.NeedsRates job.fromCode o.now →
    p = o ∧ d.client = c.client ∧ d.cache.slots = c.cache.slots ∧
      d.cache.lastUpdated = c.cache.lastUpdated
  /-- Others are fetched once. -/
  fetched : c.NeedsRates job.fromCode o.now → (d.client, p.channel) = (c.fetch job.fromCode o).2
  /-- What is fetched becomes the table of the base currency. -/
  brought : c.NeedsRates job.fromCode o.now → ∀ table, (c.fetch job.fromCode o).1 = .done table →
    d.cache.slots = (c.cache.refresh (Text.upperString job.fromCode) table
      c.settings.rates.minEntries p.now).slots ∧ d.cache.lastUpdated = some p.now
  /-- A fetch that fails leaves the tables and the disk as they were. -/
  failed : c.NeedsRates job.fromCode o.now → ∀ fault, (c.fetch job.fromCode o).1 = .fault fault →
    d.cache.slots = c.cache.slots ∧ d.cache.lastUpdated = c.cache.lastUpdated ∧ p.disk = o.disk
  ended : Ended d job
  hasError_iff : d.hasError = false ↔
    ∃ r converted, (d.resolve job.fromCode job.toCode).1 = .ok r ∧ r.isFallback = false ∧
      job.amount.mul r.rate = .ok converted

/-- All that a conversion does. -/
structure ConvertSpec (c : Converter) (o : Outside) (d : Converter) (p : Outside) : Prop extends
    SameSelection c d where
  usable : d.cache.IsUsable
  /-- Without a pair nothing is asked, and nothing is converted. -/
  unselected : c.job? = none →
    p = o ∧ d.client = c.client ∧ d.cache = c.cache ∧ d.error = some nothingSelected ∧
      d.converted = .zero
  selected : ∀ job, c.job? = some job → HasConverted c o job d p

/-! ## Fetching -/

/-- What a conversion notes comes from the selection. -/
theorem job?_eq_some_iff :
    c.job? = some job ↔ ∃ fromCurrency toCurrency, c.fromCurrency = some fromCurrency ∧
      c.toCurrency = some toCurrency ∧ job = ⟨fromCurrency.code, toCurrency.code, c.amount⟩ := by
  unfold job?
  cases c.fromCurrency with
  | none => simp
  | some fromCurrency =>
    cases c.toCurrency with
    | none => simp
    | some toCurrency => simp [eq_comm]

theorem job_amount (h : c.job? = some job) : job.amount = c.amount := by
  obtain ⟨_, _, _, _, rfl⟩ := job?_eq_some_iff.mp h
  rfl

theorem refresh_eq (c : Converter) (base : String) (o : Outside) :
    c.refresh base o =
      takeAnswer { c with client := (c.fetch base o).2.1 } (Text.upperString base)
        (c.fetch base o).1 { o with channel := (c.fetch base o).2.2 } :=
  rfl

/-- Taking over rates changes the cache alone, whether they can be saved or not. -/
theorem takeRates_converter (c : Converter) (base : String) (rates : RateTable) (o : Outside) :
    (c.takeRates base rates o).2.1 =
      { c with cache := c.cache.refresh base rates c.settings.rates.minEntries o.now } := by
  simp only [takeRates]
  split
  · rfl
  · split <;> rfl

theorem takeRates_channel (c : Converter) (base : String) (rates : RateTable) (o : Outside) :
    (c.takeRates base rates o).2.2.channel = o.channel := by
  simp only [takeRates]
  split
  · rfl
  · split <;> rfl

/-- The converter after a fetch and before the end of the conversion. -/
theorem refresh_of_done {table : RateTable} (h : (c.fetch base o).1 = .done table) :
    (c.refresh base o).2.1 =
        { c with
          client := (c.fetch base o).2.1
          cache := c.cache.refresh (Text.upperString base) table
            c.settings.rates.minEntries (c.fetch base o).2.2.now } ∧
      (c.refresh base o).2.2.channel = (c.fetch base o).2.2 := by
  rw [refresh_eq, h]
  simp only [takeAnswer]
  rw [takeRates_converter, takeRates_channel]
  exact ⟨rfl, rfl⟩

theorem refresh_of_fault {fault : Service.Fault} (h : (c.fetch base o).1 = .fault fault) :
    c.refresh base o =
      (.fault fault, { c with client := (c.fetch base o).2.1 },
        { o with channel := (c.fetch base o).2.2 }) := by
  rw [refresh_eq, h]
  rfl

/-! ## The ways of a conversion -/

theorem convert_of_unselected (h : c.job? = none) :
    c.convert o = (c.reportError nothingSelected, o) := by
  simp only [convert, h]

theorem convert_of_fresh (h : c.job? = some job) (hfresh : c.isStale job o.now = false) :
    c.convert o = (c.finish job, o) := by
  simp only [convert, h, hfresh, Bool.false_eq_true, if_false]

/-- Stale rates are fetched, and the conversion ends with what the fetch brought. -/
theorem convert_of_stale (h : c.job? = some job) (hstale : c.isStale job o.now = true) :
    c.convert o = ((c.refresh job.fromCode o).2.1.conclude job (c.refresh job.fromCode o).1,
      (c.refresh job.fromCode o).2.2) := by
  simp only [convert, h, hstale, if_true]

/-! ## The selection and the result -/

/-- One converter has the selection and the result of another. -/
structure SameView (c d : Converter) : Prop extends SameSelection c d where
  converted : d.converted = c.converted
  error : d.error = c.error

theorem SameView.refl (c : Converter) : SameView c c :=
  ⟨.refl c, rfl, rfl⟩

theorem SameView.trans {d e : Converter} (h : SameView c d) (h' : SameView d e) : SameView c e :=
  ⟨h.toSameSelection.trans h'.toSameSelection, h'.converted.trans h.converted,
    h'.error.trans h.error⟩

/-- Fetching leaves the selection and the result alone. -/
theorem sameView_refresh (c : Converter) (base : String) (o : Outside) :
    SameView c (c.refresh base o).2.1 := by
  rw [refresh_eq]
  cases (c.fetch base o).1 with
  | done table =>
    simp only [takeAnswer]
    rw [takeRates_converter]
    exact ⟨⟨rfl, rfl, rfl, rfl, rfl⟩, rfl, rfl⟩
  | fault | breakdown | pending => exact ⟨⟨rfl, rfl, rfl, rfl, rfl⟩, rfl, rfl⟩

/-- The converted amount stays as it was, is nothing or the amount at some rate. -/
def Yields (amount before after : Decimal) : Prop :=
  after = before ∨ after = .zero ∨ ∃ rate, amount.mul rate = .ok after

theorem yields_finish (c : Converter) (job : Job) :
    Yields job.amount c.converted (c.finish job).converted := by
  cases h : (c.cleared.resolve job.fromCode job.toCode).1 with
  | error b =>
    rw [finish_of_error h]
    exact .inr (.inl rfl)
  | ok r =>
    cases hproduct : job.amount.mul r.rate with
    | ok converted =>
      rw [finish_of_ok h hproduct]
      exact .inr (.inr ⟨r.rate, hproduct⟩)
    | error signal =>
      rw [finish_of_excess h hproduct]
      exact .inr (.inl rfl)

/-- The end of a conversion leaves the selection alone, whatever the fetch before it brought. -/
theorem conclude_selection (c : Converter) (job : Job) (fetched : Service.Result RateTable) :
    SameSelection c (c.conclude job fetched) ∧
      Yields job.amount c.converted (c.conclude job fetched).converted := by
  have hfinish : SameSelection c (c.finish job) ∧
      Yields job.amount c.converted (c.finish job).converted :=
    ⟨(keeps_finish c job).toSameSelection, yields_finish c job⟩
  cases fetched with
  | done | fault => exact hfinish
  | breakdown b => exact ⟨⟨rfl, rfl, rfl, rfl, rfl⟩, .inr (.inl rfl)⟩
  | pending => exact ⟨.refl c, .inl rfl⟩

/-- Whatever comes of it, a conversion leaves the selection alone. -/
theorem convert_selection (c : Converter) (o : Outside) :
    SameSelection c (c.convert o).1 ∧ Yields c.amount c.converted (c.convert o).1.converted := by
  cases hjob : c.job? with
  | none =>
    rw [convert_of_unselected hjob]
    exact ⟨⟨rfl, rfl, rfl, rfl, rfl⟩, .inr (.inl rfl)⟩
  | some job =>
    rw [← job_amount hjob]
    cases hstale : c.isStale job o.now with
    | false =>
      rw [convert_of_fresh hjob hstale]
      exact ⟨(keeps_finish c job).toSameSelection, yields_finish c job⟩
    | true =>
      -- a fetch leaves the selection and the result to the end of the conversion
      have hview := sameView_refresh c job.fromCode o
      obtain ⟨hselection, hyields⟩ := conclude_selection (c.refresh job.fromCode o).2.1 job
        (c.refresh job.fromCode o).1
      rw [convert_of_stale hjob hstale]
      exact ⟨hview.toSameSelection.trans hselection, hview.converted ▸ hyields⟩

theorem convert_settings (c : Converter) (o : Outside) : (c.convert o).1.settings = c.settings :=
  (convert_selection c o).1.settings

/-! ## Fetches that settle -/

theorem convert_of_rested (h : c.job? = some job) (hrested : ¬ c.NeedsRates job.fromCode o.now) :
    c.convert o = (c.finish job, o) :=
  convert_of_fresh h (Bool.eq_false_iff.mpr fun hstale =>
    hrested (isStale_iff_needsRates.mp hstale))

/-- A fetch that brings rates or a fault is followed by the end of the conversion. -/
theorem convert_of_needsRates (h : c.job? = some job) (hneeds : c.NeedsRates job.fromCode o.now)
    (hfetch : (∃ table, (c.refresh job.fromCode o).1 = .done table) ∨
      ∃ fault, (c.refresh job.fromCode o).1 = .fault fault) :
    c.convert o = ((c.refresh job.fromCode o).2.1.finish job, (c.refresh job.fromCode o).2.2) := by
  rw [convert_of_stale h (isStale_iff_needsRates.mpr hneeds)]
  rcases hfetch with ⟨table, hdone⟩ | ⟨fault, hfault⟩
  · rw [hdone]
    rfl
  · rw [hfault]
    rfl

/-- If refreshing brings rates or a fault, then so did the fetch. -/
theorem fetch_of_refresh
    (hfetch : (∃ table, (c.refresh base o).1 = .done table) ∨
      ∃ fault, (c.refresh base o).1 = .fault fault) :
    (∃ table, (c.fetch base o).1 = .done table) ∨ ∃ fault, (c.fetch base o).1 = .fault fault := by
  rw [refresh_eq] at hfetch
  cases hanswer : (c.fetch base o).1 with
  | done table => exact .inl ⟨table, rfl⟩
  | fault fault => exact .inr ⟨fault, rfl⟩
  | breakdown | pending =>
    rw [hanswer] at hfetch
    rcases hfetch with ⟨_, ⟨⟩⟩ | ⟨_, ⟨⟩⟩

theorem takeRates_ne_pending (c : Converter) (base : String) (rates : RateTable) (o : Outside) :
    (c.takeRates base rates o).1 ≠ .pending := by
  unfold takeRates
  dsimp only
  split
  · nofun
  · split <;> nofun

theorem fetch_of_pending (h : (c.refresh base o).1 = .pending) : (c.fetch base o).1 = .pending := by
  rw [refresh_eq] at h
  cases hfetch : (c.fetch base o).1 with
  | done rates =>
    rw [hfetch] at h
    exact absurd h (takeRates_ne_pending _ _ _ _)
  | fault | breakdown =>
    rw [hfetch] at h
    cases h
  | pending => rfl

theorem hasConverted_of_rested (hrested : ¬ c.NeedsRates job.fromCode o.now)
    (hended : Ended (c.finish job) job) : HasConverted c o job (c.finish job) o where
  rested _ := by
    have hkeeps := keeps_finish c job
    exact ⟨rfl, hkeeps.client, hkeeps.slots, hkeeps.lastUpdated⟩
  fetched hneeds := absurd hneeds hrested
  brought hneeds := absurd hneeds hrested
  failed hneeds := absurd hneeds hrested
  ended := hended
  hasError_iff := hended.hasError_eq_false_iff

theorem hasConverted_of_done {table : RateTable} (hneeds : c.NeedsRates job.fromCode o.now)
    (hdone : (c.fetch job.fromCode o).1 = .done table)
    (hended : Ended ((c.refresh job.fromCode o).2.1.finish job) job) :
    HasConverted c o job ((c.refresh job.fromCode o).2.1.finish job)
      (c.refresh job.fromCode o).2.2 := by
  obtain ⟨hconverter, hchannel⟩ := refresh_of_done hdone
  have hkeeps := keeps_finish (c.refresh job.fromCode o).2.1 job
  refine ⟨fun hrested => absurd hneeds hrested, fun _ => ?_, fun _ table' hdone' => ?_,
    fun _ fault hfault => ?_, hended, hended.hasError_eq_false_iff⟩
  · refine Prod.ext ?_ hchannel
    rw [hkeeps.client, hconverter]
  · rw [hdone] at hdone'
    cases hdone'
    rw [hkeeps.slots, hkeeps.lastUpdated, hconverter, Outside.now, hchannel]
    exact ⟨rfl, rfl⟩
  · rw [hdone] at hfault
    cases hfault

theorem hasConverted_of_fault {fault : Service.Fault} (hneeds : c.NeedsRates job.fromCode o.now)
    (hfault : (c.fetch job.fromCode o).1 = .fault fault)
    (hended : Ended ((c.refresh job.fromCode o).2.1.finish job) job) :
    HasConverted c o job ((c.refresh job.fromCode o).2.1.finish job)
      (c.refresh job.fromCode o).2.2 := by
  have hkeeps := keeps_finish (c.refresh job.fromCode o).2.1 job
  rw [refresh_of_fault hfault] at hkeeps hended ⊢
  dsimp only at hkeeps hended ⊢
  refine ⟨fun hrested => absurd hneeds hrested, fun _ => ?_, fun _ table hdone => ?_,
    fun _ _ _ => ⟨hkeeps.slots, hkeeps.lastUpdated, rfl⟩, hended, hended.hasError_eq_false_iff⟩
  · rw [hkeeps.client]
  · rw [hfault] at hdone
    cases hdone

/-- Before the end of a conversion only the client and the cache have changed, and the cache is
    still usable. -/
theorem refresh_spec (husable : c.cache.IsUsable)
    (hfetch : (∃ table, (c.fetch base o).1 = .done table) ∨
      ∃ fault, (c.fetch base o).1 = .fault fault) :
    SameSelection c (c.refresh base o).2.1 ∧
      (c.refresh base o).2.1.cache.IsUsable := by
  rcases hfetch with ⟨table, hdone⟩ | ⟨fault, hfault⟩
  · rw [(refresh_of_done hdone).1]
    exact ⟨⟨rfl, rfl, rfl, rfl, rfl⟩, husable.refresh (Client.isUsable_of_rates hdone) _ _⟩
  · rw [refresh_of_fault hfault]
    exact ⟨⟨rfl, rfl, rfl, rfl, rfl⟩, husable⟩

/-- **Conversions**: over usable rates a conversion does what it should, if the fetch that it may
    need brings rates that can be saved, or a fault of the rate service. -/
theorem convert_spec (husable : c.cache.IsUsable) (hamount : c.amount.isFinite = true)
    (hfetch : ∀ job, c.job? = some job → c.NeedsRates job.fromCode o.now →
      (∃ table, (c.refresh job.fromCode o).1 = .done table) ∨
        ∃ fault, (c.refresh job.fromCode o).1 = .fault fault) :
    ConvertSpec c o (c.convert o).1 (c.convert o).2 := by
  cases hjob : c.job? with
  | none =>
    rw [convert_of_unselected hjob]
    refine ⟨⟨rfl, rfl, rfl, rfl, rfl⟩, husable, fun _ => ⟨rfl, rfl, rfl, rfl, rfl⟩, ?_⟩
    intro job hsome
    rw [hjob] at hsome
    cases hsome
  | some job =>
    have hfinite : job.amount.isFinite = true := by rw [job_amount hjob, hamount]
    have hunselected {P : Prop} (hnone : c.job? = none) : P := by
      rw [hjob] at hnone
      cases hnone
    by_cases hneeds : c.NeedsRates job.fromCode o.now
    · have hsettled := hfetch job hjob hneeds
      -- that the rates could be saved shows in the result of refreshing, not in the answer
      have hanswer := fetch_of_refresh hsettled
      obtain ⟨hselection, hcache⟩ := refresh_spec husable hanswer
      have hkeeps := keeps_finish (c.refresh job.fromCode o).2.1 job
      have hended := ended_finish hcache hfinite
      rw [convert_of_needsRates hjob hneeds hsettled]
      dsimp only
      refine ⟨hselection.trans hkeeps.toSameSelection, hkeeps.usable hcache, hunselected, ?_⟩
      intro other hother
      rw [← Option.some.inj (hjob.symm.trans hother)]
      rcases hanswer with ⟨table, hdone⟩ | ⟨fault, hfault⟩
      · exact hasConverted_of_done hneeds hdone hended
      · exact hasConverted_of_fault hneeds hfault hended
    · have hkeeps := keeps_finish c job
      rw [convert_of_rested hjob hneeds]
      dsimp only
      refine ⟨hkeeps.toSameSelection, hkeeps.usable husable, hunselected, ?_⟩
      intro other hother
      rw [← Option.some.inj (hjob.symm.trans hother)]
      exact hasConverted_of_rested hneeds (ended_finish husable hfinite)

/-- From euros to pounds over the rates that are known from the start, while the rate service cannot
    be reached. -/
theorem convert_spec_offline :
    let settings : Settings :=
      { Settings.default with
        service := { Settings.Service.default with
          client := { Settings.Service.default.client with maxRetries := 0 } }
        display := { Settings.Display.default with fromCode := "EUR", toCode := "GBP" } }
    let c : Converter :=
      .ofSettings settings (.ofConfig settings.service.client) none (baselineCache .earliest)
    let o : Outside := ⟨⟨.earliest, [], [], []⟩, .empty⟩
    c.cache.IsUsable ∧ c.amount.isFinite = true ∧ c.job? = some ⟨"EUR", "GBP", .one⟩ ∧
      c.NeedsRates "EUR" o.now ∧ ConvertSpec c o (c.convert o).1 (c.convert o).2 := by
  intro settings c o
  have husable : c.cache.IsUsable := by decide +kernel
  have hjob : c.job? = some ⟨"EUR", "GBP", .one⟩ := by decide +kernel
  have hneeds : c.NeedsRates "EUR" o.now := .inl (by decide +kernel)
  have hfetch : ∃ fault, (c.refresh "EUR" o).1 = .fault fault :=
    ⟨.unreachable "offline", by decide +kernel⟩
  refine ⟨husable, rfl, hjob, hneeds, convert_spec husable rfl fun job hsome _ => .inr ?_⟩
  rw [← Option.some.inj (hjob.symm.trans hsome)]
  exact hfetch

end Cambio.Converter
