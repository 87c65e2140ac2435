import Cambio.Conversion.Convert
import Cambio.Proofs.Decimal.Rounding
import Cambio.Proofs.Rates.Usable

/-!
# Resolving over usable rates

While all rates are usable, a rate is resolved unless a quotient is too large. Resolving changes
what a converter has counted and its error, and nothing else.

## Main definitions

- `Resolution.IsBounded` — a rate was resolved, or a quotient is too large
- `Converter.SameSelection`, `Converter.Keeps` — what stays as it is
- `Converter.Ended` — how a conversion can end

## Main statements

- `Converter.isBounded_resolve` — resolving succeeds or overflows
- `Converter.resolve_fst_congr` — the rate depends on the settings and the tables
- `Converter.keeps_finish`, `Converter.ended_finish` — the end of a conversion
-/

namespace Cambio

/-! ## Over a book of tables -/

namespace Resolution

/-- A rate was resolved and is finite, or there is none because a quotient is too large. -/
inductive IsBounded : Except Breakdown Resolution → Prop
  | found {r : Resolution} (h : r.rate.isFinite = true) : IsBounded (.ok r)
  | overflow : IsBounded (.error (.arithmetic .overflow))

theorem isBounded_checked {r : Resolution} (h : r.rate.isFinite = true) :
    IsBounded (checked r) := by
  rw [checked, if_pos h]
  exact .found h

theorem isBounded_ofCross {rate : Except Decimal.Signal Decimal} (h : Decimal.IsBounded rate)
    (fromCode toCode hub : String) (source : Source) :
    IsBounded (ofCross fromCode toCode hub source rate) := by
  cases h with
  | finite hfinite => exact isBounded_checked hfinite
  | overflow => exact .overflow

/-- A quotient comes from two rates of one table. -/
theorem exists_of_cross? {book : RateBook} {hub fromCode toCode : String}
    {rate : Except Decimal.Signal Decimal} (h : cross? book hub fromCode toCode = some rate) :
    ∃ entry ∈ book, ∃ divisor ∈ entry.2, ∃ dividend ∈ entry.2,
      rate = dividend.2.div divisor.2 := by
  simp only [cross?, Option.bind_eq_bind, Option.bind_eq_some_iff] at h
  obtain ⟨table, htable, divisor, hdivisor, dividend, hdividend, hrate⟩ := h
  refine ⟨_, Entries.mem_of_get? htable, _, Entries.mem_of_get? hdivisor, _,
    Entries.mem_of_get? hdividend, ?_⟩
  split at hrate
  · cases hrate
  · cases hrate
    rfl

/-- The quotient of two usable rates. -/
theorem isBounded_cross? {book : RateBook} (hbook : RateBook.IsUsable book)
    {hub fromCode toCode : String} {rate : Except Decimal.Signal Decimal}
    (h : cross? book hub fromCode toCode = some rate) : Decimal.IsBounded rate := by
  obtain ⟨entry, hentry, divisor, hdivisor, dividend, hdividend, rfl⟩ := exists_of_cross? h
  have hpositive : divisor.2.isPositive = true := hbook entry hentry divisor hdivisor
  have hpositive' : dividend.2.isPositive = true := hbook entry hentry dividend hdividend
  exact Decimal.isBounded_div (Decimal.isFinite_of_isPositive hpositive')
    (Decimal.isFinite_of_isPositive hpositive) (Decimal.isZero_of_isPositive hpositive)

/-- Of the steps over usable tables, only a quotient can fail. -/
theorem isBounded_ofBook {book : RateBook} (hbook : RateBook.IsUsable book)
    (primary secondary fromCode toCode : String) :
    IsBounded (ofBook book primary secondary fromCode toCode) := by
  unfold ofBook
  split
  · next rate hdirect =>
    obtain ⟨table, htable, hrate⟩ := Option.bind_eq_some_iff.mp hdirect
    have husable : RateTable.IsUsable table := hbook _ (Entries.mem_of_get? htable)
    exact isBounded_checked (Decimal.isFinite_of_isPositive (husable.get? hrate))
  · split
    · next hprimary => exact isBounded_ofCross (isBounded_cross? hbook hprimary) _ _ _ _
    · split
      · next hsecondary => exact isBounded_ofCross (isBounded_cross? hbook hsecondary) _ _ _ _
      · exact .found rfl

theorem rate_of_checked {r r' : Resolution} (h : checked r = .ok r') : r'.rate = r.rate := by
  unfold checked at h
  split at h
  · cases h
    rfl
  · cases h

/-- A resolved rate is one, a rate of a table or a quotient of two of them. -/
theorem rate_of_ofBook {p : Decimal → Prop} {book : RateBook}
    {primary secondary fromCode toCode : String} {r : Resolution} (hone : p .one)
    (hdirect : ∀ entry ∈ book, ∀ rate ∈ entry.2, p rate.2)
    (hcross : ∀ entry ∈ book, ∀ divisor ∈ entry.2, ∀ dividend ∈ entry.2, ∀ rate,
      dividend.2.div divisor.2 = .ok rate → p rate)
    (h : ofBook book primary secondary fromCode toCode = .ok r) : p r.rate := by
  have hquotient {hub : String} {source : Source} {rate : Except Decimal.Signal Decimal}
      (hrate : cross? book hub fromCode toCode = some rate)
      (hr : ofCross fromCode toCode hub source rate = .ok r) : p r.rate := by
    obtain ⟨entry, hentry, divisor, hdivisor, dividend, hdividend, rfl⟩ := exists_of_cross? hrate
    cases hdiv : dividend.2.div divisor.2 with
    | error signal =>
      rw [hdiv] at hr
      cases hr
    | ok rate =>
      rw [hdiv] at hr
      rw [rate_of_checked hr]
      exact hcross entry hentry divisor hdivisor dividend hdividend rate hdiv
  unfold ofBook at h
  split at h
  · next rate hrate =>
    obtain ⟨table, htable, hget⟩ := Option.bind_eq_some_iff.mp hrate
    rw [rate_of_checked h]
    exact hdirect _ (Entries.mem_of_get? htable) _ (Entries.mem_of_get? hget)
  · split at h
    · next hprimary => exact hquotient hprimary h
    · split at h
      · next hsecondary => exact hquotient hsecondary h
      · cases h
        exact hone

end Resolution

/-! ## By a converter -/

namespace Converter

/-- One converter has the selection and the settings of another. -/
structure SameSelection (c d : Converter) : Prop where
  settings : d.settings = c.settings
  store : d.store = c.store
  fromCurrency : d.fromCurrency = c.fromCurrency
  toCurrency : d.toCurrency = c.toCurrency
  amount : d.amount = c.amount

/-- One converter has the selection, the settings, the client and the tables of another. -/
structure Keeps (c d : Converter) : Prop extends SameSelection c d where
  client : d.client = c.client
  slots : d.cache.slots = c.cache.slots
  lastUpdated : d.cache.lastUpdated = c.cache.lastUpdated

variable {c d e : Converter} {job : Job}

theorem SameSelection.refl (c : Converter) : SameSelection c c :=
  ⟨rfl, rfl, rfl, rfl, rfl⟩

theorem SameSelection.trans (h : SameSelection c d) (h' : SameSelection d e) :
    SameSelection c e :=
  ⟨h'.settings.trans h.settings, h'.store.trans h.store, h'.fromCurrency.trans h.fromCurrency,
    h'.toCurrency.trans h.toCurrency, h'.amount.trans h.amount⟩

theorem Keeps.refl (c : Converter) : Keeps c c :=
  ⟨.refl c, rfl, rfl, rfl⟩

theorem Keeps.trans (h : Keeps c d) (h' : Keeps d e) : Keeps c e :=
  ⟨h.toSameSelection.trans h'.toSameSelection, h'.client.trans h.client, h'.slots.trans h.slots,
    h'.lastUpdated.trans h.lastUpdated⟩

/-- The error and the converted amount are no part of what is kept. -/
theorem Keeps.with_result (h : Keeps c d) (error : Option String) (converted : Decimal) :
    Keeps c { d with error := error, converted := converted } :=
  ⟨⟨h.settings, h.store, h.fromCurrency, h.toCurrency, h.amount⟩, h.client, h.slots,
    h.lastUpdated⟩

theorem Keeps.usable (h : Keeps c d) (husable : c.cache.IsUsable) : d.cache.IsUsable :=
  husable.of_slots_eq h.slots

/-- The tables that a resolution goes through. -/
def tables (c : Converter) (fromCode : String) : RateBook :=
  (c.cache.lookUpAll
    [Text.upperString fromCode, c.settings.rates.primary, c.settings.rates.secondary]).1

theorem resolve_fst_of_eq {fromCode toCode : String}
    (h : Text.upperString fromCode = Text.upperString toCode) :
    (c.resolve fromCode toCode).1 = .ok (.identity (Text.upperString fromCode)) := by
  simp only [resolve]
  rw [if_pos h]

theorem resolve_fst_of_ne {fromCode toCode : String}
    (h : Text.upperString fromCode ≠ Text.upperString toCode) :
    (c.resolve fromCode toCode).1 =
      Resolution.ofBook (c.tables fromCode) c.settings.rates.primary c.settings.rates.secondary
        (Text.upperString fromCode) (Text.upperString toCode) := by
  simp only [resolve, tables]
  rw [if_neg h]
  split <;> simp_all

/-- The resolved rate depends on the settings and on the tables, on nothing else. -/
theorem resolve_fst_congr (hsettings : c.settings = d.settings)
    (hslots : c.cache.slots = d.cache.slots) (fromCode toCode : String) :
    (c.resolve fromCode toCode).1 = (d.resolve fromCode toCode).1 := by
  by_cases hsame : Text.upperString fromCode = Text.upperString toCode
  · rw [resolve_fst_of_eq hsame, resolve_fst_of_eq hsame]
  · rw [resolve_fst_of_ne hsame, resolve_fst_of_ne hsame, tables, tables, hsettings,
      RateCache.lookUpAll_fst_congr hslots]

/-- Resolving fails on usable rates only if a quotient is too large. -/
theorem isBounded_resolve (h : c.cache.IsUsable) (fromCode toCode : String) :
    Resolution.IsBounded (c.resolve fromCode toCode).1 := by
  by_cases hsame : Text.upperString fromCode = Text.upperString toCode
  · rw [resolve_fst_of_eq hsame]
    exact .found rfl
  · rw [resolve_fst_of_ne hsame]
    exact Resolution.isBounded_ofBook (h.lookUpAll _) _ _ _ _

theorem keeps_resolve (c : Converter) (fromCode toCode : String) :
    Keeps c (c.resolve fromCode toCode).2 := by
  have hslots (bases : List String) := RateCache.lookUpAll_slots c.cache bases
  have hlast (bases : List String) := RateCache.lookUpAll_lastUpdated c.cache bases
  simp only [resolve]
  split
  · exact .refl c
  · split
    · split <;> exact ⟨⟨rfl, rfl, rfl, rfl, rfl⟩, rfl, hslots _, hlast _⟩
    · exact ⟨⟨rfl, rfl, rfl, rfl, rfl⟩, rfl, hslots _, hlast _⟩

/-- A stopgap is noted as an error; any other rate leaves the error as it was. -/
theorem resolve_error {fromCode toCode : String} {r : Resolution}
    (h : (c.resolve fromCode toCode).1 = .ok r) :
    (c.resolve fromCode toCode).2.error =
      if r.isFallback then
        some (Resolution.missingMessage (Text.upperString fromCode) (Text.upperString toCode))
      else c.error := by
  by_cases hsame : Text.upperString fromCode = Text.upperString toCode
  · rw [resolve_fst_of_eq hsame] at h
    cases h
    simp only [resolve]
    rw [if_pos hsame]
    rfl
  · have hbook := (resolve_fst_of_ne hsame).symm.trans h
    simp only [tables] at hbook
    simp only [resolve, hbook]
    rw [if_neg hsame]
    split <;> rfl

/-! ## The end of a conversion -/

/-- What is said when a product or a quotient is too large. -/
def overflowMessage : String :=
  s!"Conversion error: {Decimal.Signal.overflow.message}"

/-- How a conversion can end: with the amount at a rate that was found, with the amount at the
    stopgap rate and an error, or with a number that is too large. -/
inductive Ended (c : Converter) (job : Job) : Prop where
  | exact (r : Resolution) (hresolve : (c.resolve job.fromCode job.toCode).1 = .ok r)
      (hfound : r.isFallback = false) (hproduct : job.amount.mul r.rate = .ok c.converted)
      (herror : c.error = none)
  | stopgap (r : Resolution) (hresolve : (c.resolve job.fromCode job.toCode).1 = .ok r)
      (hmissing : r.isFallback = true) (hproduct : job.amount.mul r.rate = .ok c.converted)
      (herror : c.error = some (Resolution.missingMessage (Text.upperString job.fromCode)
        (Text.upperString job.toCode)))
  | overflow (hoverflow : (c.resolve job.fromCode job.toCode).1 = .error (.arithmetic .overflow) ∨
        ∃ r, (c.resolve job.fromCode job.toCode).1 = .ok r ∧
          job.amount.mul r.rate = .error .overflow)
      (hconverted : c.converted = .zero) (herror : c.error = some overflowMessage)

/-- There is no error exactly if a rate was found and neither quotient nor product is too large. -/
theorem Ended.hasError_eq_false_iff (h : Ended c job) :
    c.hasError = false ↔
      ∃ r converted, (c.resolve job.fromCode job.toCode).1 = .ok r ∧ r.isFallback = false ∧
        job.amount.mul r.rate = .ok converted := by
  rw [hasError]
  cases h with
  | exact r hresolve hfound hproduct herror =>
    rw [herror]
    exact iff_of_true rfl ⟨r, c.converted, hresolve, hfound, hproduct⟩
  | stopgap r hresolve hmissing hproduct herror =>
    rw [herror]
    refine iff_of_false (by simp) ?_
    rintro ⟨r', converted, hresolve', hfound, hproduct'⟩
    rw [hresolve] at hresolve'
    cases hresolve'
    exact Bool.false_ne_true (hfound.symm.trans hmissing)
  | overflow hoverflow hconverted herror =>
    rw [herror]
    refine iff_of_false (by simp) ?_
    rintro ⟨r', converted, hresolve', hfound, hproduct'⟩
    rcases hoverflow with hresolve | ⟨r, hresolve, hproduct⟩
    · rw [hresolve] at hresolve'
      cases hresolve'
    · rw [hresolve] at hresolve'
      cases hresolve'
      rw [hproduct] at hproduct'
      cases hproduct'

/-- The end of a conversion forgets the error before it resolves the rate. -/
def cleared (c : Converter) : Converter :=
  { c with error := none }

theorem finish_of_ok {r : Resolution} {converted : Decimal}
    (h : (c.cleared.resolve job.fromCode job.toCode).1 = .ok r)
    (hproduct : job.amount.mul r.rate = .ok converted) :
    c.finish job =
      { (c.cleared.resolve job.fromCode job.toCode).2 with converted := converted } := by
  have hpair : c.cleared.resolve job.fromCode job.toCode =
      (.ok r, (c.cleared.resolve job.fromCode job.toCode).2) := Prod.ext h rfl
  rw [finish, ← cleared, hpair]
  simp only [hproduct]

theorem finish_of_excess {r : Resolution} {signal : Decimal.Signal}
    (h : (c.cleared.resolve job.fromCode job.toCode).1 = .ok r)
    (hproduct : job.amount.mul r.rate = .error signal) :
    c.finish job =
      (c.cleared.resolve job.fromCode job.toCode).2.conversionFailed (.arithmetic signal) := by
  have hpair : c.cleared.resolve job.fromCode job.toCode =
      (.ok r, (c.cleared.resolve job.fromCode job.toCode).2) := Prod.ext h rfl
  rw [finish, ← cleared, hpair]
  simp only [hproduct]

theorem finish_of_error {b : Breakdown}
    (h : (c.cleared.resolve job.fromCode job.toCode).1 = .error b) :
    c.finish job = (c.cleared.resolve job.fromCode job.toCode).2.conversionFailed b := by
  have hpair : c.cleared.resolve job.fromCode job.toCode =
      (.error b, (c.cleared.resolve job.fromCode job.toCode).2) := Prod.ext h rfl
  rw [finish, ← cleared, hpair]

theorem keeps_finish (c : Converter) (job : Job) : Keeps c (c.finish job) := by
  have hcleared : Keeps c c.cleared := (Keeps.refl c).with_result none c.converted
  have hresolve := hcleared.trans (keeps_resolve c.cleared job.fromCode job.toCode)
  cases h : (c.cleared.resolve job.fromCode job.toCode).1 with
  | error b =>
    rw [finish_of_error h]
    exact hresolve.with_result _ _
  | ok r =>
    cases hproduct : job.amount.mul r.rate with
    | ok converted =>
      rw [finish_of_ok h hproduct]
      exact hresolve.with_result _ _
    | error signal =>
      rw [finish_of_excess h hproduct]
      exact hresolve.with_result _ _

theorem ended_finish (husable : c.cache.IsUsable) (hamount : job.amount.isFinite = true) :
    Ended (c.finish job) job := by
  have hkeeps := keeps_finish c job
  -- the rate is stated over the cache of afterwards, where only the counts differ
  have hresolved : ((c.finish job).resolve job.fromCode job.toCode).1 =
      (c.cleared.resolve job.fromCode job.toCode).1 :=
    resolve_fst_congr (d := c.cleared) hkeeps.settings hkeeps.slots _ _
  have hbounded : Resolution.IsBounded (c.cleared.resolve job.fromCode job.toCode).1 :=
    isBounded_resolve (c := c.cleared) husable _ _
  cases h : (c.cleared.resolve job.fromCode job.toCode).1 with
  | error b =>
    rw [h] at hbounded hresolved
    cases hbounded
    refine .overflow (.inl hresolved) ?_ ?_ <;> rw [finish_of_error h] <;> rfl
  | ok r =>
    rw [h] at hbounded hresolved
    obtain ⟨hfinite⟩ := hbounded
    have herror := resolve_error h
    cases hproduct : job.amount.mul r.rate with
    | error signal =>
      have hmul := Decimal.isBounded_mul hamount hfinite
      rw [hproduct] at hmul
      cases hmul
      refine .overflow (.inr ⟨r, hresolved, hproduct⟩) ?_ ?_ <;>
        rw [finish_of_excess h hproduct] <;> rfl
    | ok converted =>
      have hafter := finish_of_ok h hproduct
      have hconverted : (c.finish job).converted = converted := by rw [hafter]
      have herror' : (c.finish job).error =
          (c.cleared.resolve job.fromCode job.toCode).2.error := by rw [hafter]
      cases hfallback : r.isFallback with
      | true =>
        refine .stopgap r hresolved hfallback (by rw [hconverted, hproduct]) ?_
        rw [herror', herror, hfallback, if_pos rfl]
      | false =>
        refine .exact r hresolved hfallback (by rw [hconverted, hproduct]) ?_
        rw [herror', herror, hfallback]
        rfl

end Converter

end Cambio
