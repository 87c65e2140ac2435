import Cambio.Conversion.WarmUp
import Cambio.Proofs.Conversion.Convert
import Cambio.Proofs.Service.Outcome

/-!
# Conversions and warm-ups without new rates

A conversion goes on with the tables that it has when the rate service is at fault, and the warm-up
goes on with the next currency. Both end on a breakdown: the conversion with an error and an amount
of zero, the warm-up before the currencies that are left.

## Main definitions

- `Converter.fetchMajor` — a fetch of the warm-up, after those before it
- `Converter.GoesOn` — what a conversion and a warm-up make of a fetch

## Main statements

- `Converter.fetchEach_append` — fetches that settle are followed by the next one
- `Converter.settles_or_breaks` — which requests settle, and what comes of them
-/

namespace Cambio.Converter

variable {c : Converter} {o : Outside} {job : Job} {base : String} {b : Breakdown}

/-! ## Conversions -/

theorem refresh_of_breakdown (h : (c.fetch base o).1 = .breakdown b) :
    c.refresh base o =
      (.breakdown b, { c with client := (c.fetch base o).2.1 },
        { o with channel := (c.fetch base o).2.2 }) := by
  rw [refresh_eq, h]
  rfl

theorem convert_of_fault {fault : Service.Fault} (hjob : c.job? = some job)
    (hneeds : c.NeedsRates job.fromCode o.now)
    (hfault : (c.fetch job.fromCode o).1 = .fault fault) :
    c.convert o =
      (({ c with client := (c.fetch job.fromCode o).2.1 } : Converter).finish job,
        { o with channel := (c.fetch job.fromCode o).2.2 }) := by
  have hrefresh := refresh_of_fault hfault
  rw [convert_of_needsRates hjob hneeds (.inr ⟨fault, by rw [hrefresh]⟩), hrefresh]

theorem convert_of_breakdown (hjob : c.job? = some job)
    (hneeds : c.NeedsRates job.fromCode o.now)
    (hbreaks : (c.fetch job.fromCode o).1 = .breakdown b) :
    c.convert o =
      (({ c with client := (c.fetch job.fromCode o).2.1 } : Converter).conversionFailed b,
        { o with channel := (c.fetch job.fromCode o).2.2 }) := by
  rw [convert_of_stale hjob (isStale_iff_needsRates.mpr hneeds), refresh_of_breakdown hbreaks]
  rfl

/-! ## Warm-ups -/

/-- The fetch of a currency with a pause before it. -/
def fetchLater (w : Converter × Outside) (base : String) :
    Service.Result RateTable × Converter × Outside :=
  w.1.refresh base (w.2.pause w.1.settings.rates.pause)

/-- Several currencies were fetched, one after the other. -/
def fetchedLater (w : Converter × Outside) (bases : List String) : Converter × Outside :=
  bases.foldl (fun w base => (fetchLater w base).2) w

/-- How a fetch ends those of several currencies, or leads to the rest of them. -/
def afterFetch (w : Service.Result RateTable × Converter × Outside) (rest : List String) :
    WarmUp × Converter × Outside :=
  match w with
  | (.done _, c, o) => c.fetchEach o rest
  | (.fault _, c, o) => c.fetchEach o rest
  | (.breakdown b, c, o) => (.broken b, c, o)
  | (.pending, c, o) => (.pending, c, o)

variable {w : Service.Result RateTable × Converter × Outside} {rest : List String}

theorem afterFetch_of_isSettled (h : w.1.IsSettled) :
    afterFetch w rest = w.2.1.fetchEach w.2.2 rest := by
  obtain ⟨result, d, p⟩ := w
  rcases h with ⟨table, hdone⟩ | ⟨fault, hfault⟩
  · change result = _ at hdone
    subst hdone
    rfl
  · change result = _ at hfault
    subst hfault
    rfl

theorem afterFetch_of_breakdown (h : w.1 = .breakdown b) :
    afterFetch w rest = (.broken b, w.2) := by
  obtain ⟨result, d, p⟩ := w
  change result = _ at h
  subst h
  rfl

theorem fetchEach_cons (c : Converter) (o : Outside) (base : String) (rest : List String) :
    c.fetchEach o (base :: rest) = afterFetch (fetchLater (c, o) base) rest :=
  rfl

theorem fetchMajors_cons {first : String} (h : c.settings.rates.majors = first :: rest) :
    c.fetchMajors o = afterFetch (c.refresh first o) rest := by
  rw [fetchMajors, h]
  rfl

/-- Fetches that settle are followed by the next one. -/
theorem fetchEach_append {before : List String} (v : Converter × Outside)
    (h : ∀ earlier base later, before = earlier ++ base :: later →
      (fetchLater (fetchedLater v earlier) base).1.IsSettled) :
    v.1.fetchEach v.2 (before ++ rest) =
      (fetchedLater v before).1.fetchEach (fetchedLater v before).2 rest := by
  induction before generalizing v with
  | nil => rfl
  | cons base before ih =>
    have hfirst : (fetchLater v base).1.IsSettled := h [] base before rfl
    rw [List.cons_append, fetchEach_cons, afterFetch_of_isSettled hfirst]
    apply ih
    intro earlier next later hbefore
    exact h (base :: earlier) next later (by rw [hbefore]; rfl)

/-- The fetch of a major currency by the warm-up, after those before it. -/
def fetchMajor (c : Converter) (o : Outside) : List String → String →
    Service.Result RateTable × Converter × Outside
  | [], base => c.refresh base o
  | first :: before, base => fetchLater (fetchedLater (c.refresh first o).2 before) base

/-- The fetches of some major currencies settle, those of the warm-up before each of them too. -/
def MajorsSettle (c : Converter) (o : Outside) (bases : List String) : Prop :=
  ∀ before base later, bases = before ++ base :: later → (c.fetchMajor o before base).1.IsSettled

/-- A warm-up goes on as far as its fetches settle. -/
theorem fetchMajors_of_settle {before : List String}
    (hmajors : c.settings.rates.majors = before ++ base :: rest)
    (hsettle : c.MajorsSettle o before) :
    c.fetchMajors o = afterFetch (c.fetchMajor o before base) rest := by
  cases before with
  | nil => exact fetchMajors_cons hmajors
  | cons first before =>
    -- only the first fetch has no pause before it
    have hfirst : (c.refresh first o).1.IsSettled := hsettle [] first before rfl
    rw [List.cons_append] at hmajors
    rw [fetchMajors_cons hmajors, afterFetch_of_isSettled hfirst]
    refine fetchEach_append (c.refresh first o).2 ?_
    intro earlier next later hbefore
    exact hsettle (first :: earlier) next later (by rw [hbefore]; rfl)

theorem fetchMajors_finished (hsettle : c.MajorsSettle o c.settings.rates.majors) :
    (c.fetchMajors o).1 = .finished := by
  rcases List.eq_nil_or_concat c.settings.rates.majors with hnone | ⟨before, last, hmajors⟩
  · rw [fetchMajors, hnone]
  · rw [List.concat_eq_append] at hmajors
    rw [hmajors] at hsettle
    have hlast : (c.fetchMajor o before last).1.IsSettled := hsettle before last [] rfl
    rw [fetchMajors_of_settle hmajors, afterFetch_of_isSettled hlast]
    · rfl
    · intro earlier base later hbefore
      exact hsettle earlier base (later ++ [last]) (by rw [hbefore, List.append_assoc]; rfl)

/-! ## What comes of a fetch -/

/-- What a conversion and a warm-up make of a fetch. -/
structure GoesOn (c : Converter) (o : Outside) : Prop where
  /-- After a fault the conversion ends as one that did not have to fetch. -/
  converts : ∀ job, c.job? = some job → c.NeedsRates job.fromCode o.now →
    ∀ fault, (c.fetch job.fromCode o).1 = .fault fault →
      c.convert o =
        (({ c with client := (c.fetch job.fromCode o).2.1 } : Converter).finish job,
          { o with channel := (c.fetch job.fromCode o).2.2 })
  /-- After a breakdown it does not use the tables that it has. -/
  stops : ∀ job, c.job? = some job → c.NeedsRates job.fromCode o.now →
    ∀ b, (c.fetch job.fromCode o).1 = .breakdown b →
      (c.convert o).1 = { c with
        client := (c.fetch job.fromCode o).2.1
        error := some s!"Conversion error: {b.message}"
        converted := .zero }
  /-- A warm-up fetches one major currency after the other while the fetches settle. -/
  warmsUp : c.MajorsSettle o c.settings.rates.majors → (c.fetchMajors o).1 = .finished
  /-- After a breakdown it does not fetch those that are left. -/
  breaksOff : ∀ before base rest, c.settings.rates.majors = before ++ base :: rest →
    c.MajorsSettle o before → ∀ b, (c.fetchMajor o before base).1 = .breakdown b →
      c.fetchMajors o = (.broken b, (c.fetchMajor o before base).2)

theorem goesOn (c : Converter) (o : Outside) : GoesOn c o where
  converts job hjob hneeds fault hfault := convert_of_fault hjob hneeds hfault
  stops job hjob hneeds b hbreaks := by
    rw [convert_of_breakdown hjob hneeds hbreaks]
    rfl
  warmsUp := fetchMajors_finished
  breaksOff before base rest hmajors hsettle b hbreaks := by
    rw [fetchMajors_of_settle hmajors hsettle, afterFetch_of_breakdown hbreaks]

/-- **Requests for rates** bring a table or a fault, unless they cannot be written or their last
    answer breaks them or never comes; and only a table or a fault lets their callers go on. -/
theorem settles_or_breaks (c : Converter) (o : Outside) :
    (∀ (client : Client) (base : String) (targets : List String) (ch : Channel),
      ((client.rates base targets ch).1.IsSettled ↔
        (∀ b, ¬ client.Breaks base targets ch b) ∧ ¬ client.Hangs base targets ch) ∧
      ∀ b, (client.rates base targets ch).1 = .breakdown b ↔ client.Breaks base targets ch b) ∧
    c.GoesOn o := by
  refine ⟨fun client base targets ch => ⟨?_, fun b => ?_⟩, goesOn c o⟩
  · exact Client.isSettled_rates_iff
  · exact Client.rates_eq_breakdown_iff

/-- The settings under which a conversion from euros to pounds asks once. -/
def askingOnce : Settings :=
  { Settings.default with
    service := { Settings.Service.default with
      client := { Settings.Service.default.client with maxRetries := 0, threshold := 1 } }
    display := { Settings.Display.default with fromCode := "EUR", toCode := "GBP" } }

/-- A conversion from euros to pounds over the rates that are known from the start. -/
def eurosToPounds : Converter :=
  .ofSettings askingOnce (.ofConfig askingOnce.service.client) none (baselineCache .earliest)

/-- While the service fails, the conversion is right by the rates that are known. -/
theorem settles_or_breaks_failing :
    let o : Outside := ⟨⟨.earliest, [⟨.zero, .status 503 []⟩], [], []⟩, .empty⟩
    (eurosToPounds.convert o).1 =
        ({ eurosToPounds with client := (eurosToPounds.fetch "EUR" o).2.1 } : Converter).finish
          ⟨"EUR", "GBP", .one⟩ ∧
      (eurosToPounds.convert o).1.hasError = false := by
  intro o
  have hjob : eurosToPounds.job? = some ⟨"EUR", "GBP", .one⟩ := by decide +kernel
  have hneeds : eurosToPounds.NeedsRates "EUR" o.now := .inl (by decide +kernel)
  have hfault : (eurosToPounds.fetch "EUR" o).1 = .fault (.failed 503 "") := by decide +kernel
  have hconvert := (settles_or_breaks eurosToPounds o).2.converts _ hjob hneeds _ hfault
  exact ⟨by rw [hconvert], by decide +kernel⟩

/-- A table with a number beyond all bounds is neither a table nor a fault: the request breaks down,
    and the conversion does not use the rates that are known. -/
theorem not_isSettled_of_wideNumber :
    let body : List UInt8 := ("\x7b\"data\":\x7b\"GBP\":1e9999999999999999999\x7d\x7d".toList).map
      fun c => c.toNat.toUInt8
    let o : Outside := ⟨⟨.earliest, [⟨.zero, .status 200 body⟩], [], []⟩, .empty⟩
    ¬ (eurosToPounds.fetch "EUR" o).1.IsSettled ∧
      (eurosToPounds.finish ⟨"EUR", "GBP", .one⟩).hasError = false ∧
      (eurosToPounds.convert o).1.hasError = true := by
  intro body o
  have hbreaks : (eurosToPounds.fetch "EUR" o).1 =
      .breakdown (.document (.wideNumber .invalidOperation)) := by decide +kernel
  refine ⟨?_, by decide +kernel, by decide +kernel⟩
  rw [hbreaks]
  rintro (⟨table, htable⟩ | ⟨fault, hfault⟩)
  · cases htable
  · cases hfault

end Cambio.Converter
