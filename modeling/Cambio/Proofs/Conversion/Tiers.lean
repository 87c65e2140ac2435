import Cambio.Proofs.Conversion.Resolve
import Cambio.Proofs.Decimal.Exact
import Cambio.Proofs.Settings.Passes
import Cambio.Proofs.Text.Upper

/-!
# The tiers of a rate

A rate is looked for in tiers, and the first one that has a rate decides: the identity, the cached
rate, the quotient over the first reference currency, the quotient over the second one, and last
the stopgap. Each tier is described by the cached rates alone. The stopgap is reached exactly if
there is nothing in the tiers before it, and only then an error is noted.

## Main definitions

- `RateCache.table?` — the rates of a base currency
- `RateCache.Bridges` — a reference currency has the two rates of a quotient
- `Converter.Route` — the reference currency that decides
- `Converter.TierRules` — the rate that is resolved, tier by tier, and what it depends on

## Main statements

- `RateCache.get?_lookUpAll` — which tables are found
- `Converter.tierRules_resolve` — the rules hold for every cache and every pair of codes
- `Converter.not_direct_of_nan` — a cached rate that is no number is not resolved
-/

namespace Cambio

/-! ## The tables that count -/

namespace RateCache

/-- The rates of a base currency, for a code in capital letters. -/
def table? (c : RateCache) (base : String) : Option RateTable :=
  (c.slots.get? base).map Slot.rates

theorem rate?_eq (c : RateCache) (base target : String) :
    c.rate? base target =
      (c.table? (Text.upperString base)).bind (Entries.get? (Text.upperString target)) := by
  rw [rate?, slot?, table?, Option.bind_map]
  rfl

theorem nodup_names_lookUpAll (c : RateCache) (bases : List String) :
    (Entries.names (c.lookUpAll bases).1).Nodup := by
  induction bases generalizing c with
  | nil => exact List.nodup_nil
  | cons base bases ih =>
    rw [lookUpAll_cons]
    cases c.slot? base with
    | none => exact ih _
    | some slot =>
      have hfirst : (Entries.names [(Text.upperString base, slot.rates)]).Nodup :=
        List.nodup_singleton _
      exact Entries.nodup_names_putAll hfirst _

/-- What is found are the tables of the codes that are asked for. -/
theorem get?_lookUpAll (c : RateCache) (bases : List String) (name : String) :
    Entries.get? name (c.lookUpAll bases).1 =
      if name ∈ bases.map Text.upperString then c.table? name else none := by
  induction bases generalizing c with
  | nil => rfl
  | cons base bases ih =>
    have hrest : Entries.get? name ((c.lookUp base).2.lookUpAll bases).1 =
        if name ∈ bases.map Text.upperString then c.table? name else none := by
      rw [ih, table?, table?, lookUp_slots]
    have hbase : c.table? (Text.upperString base) = (c.slot? base).map Slot.rates := rfl
    simp only [lookUpAll_cons, List.map_cons, List.mem_cons]
    cases hslot : c.slot? base with
    | none =>
      rw [hslot] at hbase
      by_cases hname : name = Text.upperString base
      · subst hname
        simpa [hbase] using hrest
      · simpa [hname] using hrest
    | some slot =>
      rw [hslot] at hbase
      dsimp only
      rw [Entries.get?_putAll, Entries.get?_reverse (nodup_names_lookUpAll _ _), hrest]
      by_cases hname : name = Text.upperString base
      · subst hname
        by_cases hmem : Text.upperString base ∈ bases.map Text.upperString <;>
          simp [hmem, hbase, Entries.get?]
      · simp [hname, Ne.symm hname, Entries.get?]

/-- The table of a reference currency has a rate for both codes, and the one for the code to
    convert from is not zero. -/
structure Bridges (c : RateCache) (hub fromCode toCode : String) (dividend divisor : Decimal) :
    Prop where
  hasDivisor : c.rate? hub fromCode = some divisor
  hasDividend : c.rate? hub toCode = some dividend
  nonzero : divisor.isZero = false

end RateCache

/-! ## The tiers over a book -/

namespace Resolution

variable {book : RateBook} {hub fromCode toCode : String}

/-- A quotient over a reference currency, by the two rates in its table. -/
theorem cross?_eq_some_iff {result : Except Decimal.Signal Decimal} :
    cross? book hub fromCode toCode = some result ↔
      ∃ dividend divisor, (Entries.get? hub book).bind (Entries.get? fromCode) = some divisor ∧
        (Entries.get? hub book).bind (Entries.get? toCode) = some dividend ∧
        divisor.isZero = false ∧ result = dividend.div divisor := by
  simp only [cross?, Option.bind_eq_bind, Option.bind_eq_some_iff]
  constructor
  · rintro ⟨table, htable, divisor, hdivisor, dividend, hdividend, hresult⟩
    split at hresult
    · cases hresult
    · next hzero =>
      cases hresult
      exact ⟨dividend, divisor, ⟨table, htable, hdivisor⟩, ⟨table, htable, hdividend⟩,
        eq_false_of_ne_true hzero, rfl⟩
  · rintro ⟨dividend, divisor, ⟨table, htable, hdivisor⟩, ⟨table', htable', hdividend⟩, hzero, rfl⟩
    rw [htable] at htable'
    cases htable'
    exact ⟨table, htable, divisor, hdivisor, dividend, hdividend, by rw [hzero]; rfl⟩

theorem ofBook_of_direct {rate : Decimal}
    (h : (Entries.get? fromCode book).bind (Entries.get? toCode) = some rate)
    (primary secondary : String) :
    ofBook book primary secondary fromCode toCode =
      checked ⟨fromCode, toCode, rate, .direct, none⟩ := by
  rw [ofBook, h]

theorem isFallback_of_checked {r r' : Resolution} (h : checked r = .ok r') :
    r'.isFallback = r.isFallback := by
  unfold checked at h
  split at h
  · cases h
    rfl
  · cases h

/-- A quotient is never marked as a stopgap. -/
theorem isFallback_of_ofCross {source : Source} {result : Except Decimal.Signal Decimal}
    {r : Resolution} (hsource : source ≠ .fallback)
    (h : ofCross fromCode toCode hub source result = .ok r) : r.isFallback = false := by
  cases result with
  | ok rate => exact (isFallback_of_checked h).trans (decide_eq_false hsource)
  | error signal => cases h

end Resolution

/-! ## The tiers of a converter -/

namespace Converter

variable {c : Converter} {fromCode toCode : String}

/-- The reference currency over which a rate is calculated, with the two rates of the quotient: the
    second one counts only if the first one has no quotient. -/
inductive Route (c : Converter) (fromCode toCode : String) :
    Resolution.Source → String → Decimal → Decimal → Prop
  | primary {dividend divisor : Decimal}
      (h : c.cache.Bridges c.settings.rates.primary fromCode toCode dividend divisor) :
      Route c fromCode toCode .crossPrimary c.settings.rates.primary dividend divisor
  | secondary {dividend divisor : Decimal}
      (hprimary : ∀ dividend divisor,
        ¬ c.cache.Bridges c.settings.rates.primary fromCode toCode dividend divisor)
      (h : c.cache.Bridges c.settings.rates.secondary fromCode toCode dividend divisor) :
      Route c fromCode toCode .crossSecondary c.settings.rates.secondary dividend divisor

/-- There is a rate before the stopgap. -/
def HasRate (c : Converter) (fromCode toCode : String) : Prop :=
  Text.upperString fromCode = Text.upperString toCode ∨
    (c.cache.rate? fromCode toCode).isSome = true ∨
    ∃ source hub dividend divisor, Route c fromCode toCode source hub dividend divisor

/-- The rate that is resolved, tier by tier, and what it depends on. -/
structure TierRules (c : Converter) (fromCode toCode : String) : Prop where
  /-- A currency buys itself at one. -/
  identity (hsame : Text.upperString fromCode = Text.upperString toCode) :
    (c.resolve fromCode toCode).1 =
      .ok ⟨Text.upperString fromCode, Text.upperString toCode, .one, .identity, none⟩
  /-- A cached rate counts as it stands; it is refused if it is not finite. -/
  direct (hne : Text.upperString fromCode ≠ Text.upperString toCode) (rate : Decimal)
    (hrate : c.cache.rate? fromCode toCode = some rate) :
    (c.resolve fromCode toCode).1 =
      if rate.isFinite then
        .ok ⟨Text.upperString fromCode, Text.upperString toCode, rate, .direct, none⟩
      else .error (.record Resolution.notFinite)
  /-- Without a cached rate the quotient counts; it is refused if it is not finite. -/
  cross (hne : Text.upperString fromCode ≠ Text.upperString toCode)
    (hnone : c.cache.rate? fromCode toCode = none) (source : Resolution.Source) (hub : String)
    (dividend divisor : Decimal) (hroute : Route c fromCode toCode source hub dividend divisor) :
    (c.resolve fromCode toCode).1 =
      match dividend.div divisor with
      | .ok rate =>
        if rate.isFinite then
          .ok ⟨Text.upperString fromCode, Text.upperString toCode, rate, source, some hub⟩
        else .error (.record Resolution.notFinite)
      | .error signal => .error (.arithmetic signal)
  /-- The quotient of finite rates is the nearest value at the working precision, unless it is too
      large. -/
  quotient (source : Resolution.Source) (hub : String) (dividend divisor : Decimal)
    (hroute : Route c fromCode toCode source hub dividend divisor)
    (hdividend : dividend.isFinite = true) (hdivisor : divisor.isFinite = true)
    (hrange : |Decimal.nearest (dividend.value / divisor.value)| < Decimal.tooLarge) :
    ∃ rate, dividend.div divisor = .ok rate ∧ rate.isFinite = true ∧
      rate.value = Decimal.nearest (dividend.value / divisor.value)
  /-- Without any rate there is the stopgap. -/
  stopgap (hmissing : ¬ HasRate c fromCode toCode) :
    (c.resolve fromCode toCode).1 =
      .ok ⟨Text.upperString fromCode, Text.upperString toCode, .one, .fallback, none⟩
  /-- With a rate there is no stopgap. -/
  found (hrate : HasRate c fromCode toCode) (r : Resolution)
    (h : (c.resolve fromCode toCode).1 = .ok r) : r.source ≠ .fallback
  /-- The stopgap is noted as an error, and nothing else is. -/
  error :
    (¬ HasRate c fromCode toCode → (c.resolve fromCode toCode).2.error =
      some (Resolution.missingMessage (Text.upperString fromCode) (Text.upperString toCode))) ∧
    (HasRate c fromCode toCode → (c.resolve fromCode toCode).2.error = c.error)
  /-- Neither the tables nor the selection nor the converted amount change. -/
  kept : Keeps c (c.resolve fromCode toCode).2 ∧
    (c.resolve fromCode toCode).2.converted = c.converted
  /-- The answer depends on three tables only. -/
  depends (d : Converter) (hprimary : d.settings.rates.primary = c.settings.rates.primary)
    (hsecondary : d.settings.rates.secondary = c.settings.rates.secondary)
    (htables : ∀ base ∈ [Text.upperString fromCode, c.settings.rates.primary,
      c.settings.rates.secondary], d.cache.table? base = c.cache.table? base) :
    (d.resolve fromCode toCode).1 = (c.resolve fromCode toCode).1
  /-- Adding, replacing or removing any other table changes nothing. -/
  others (base : String) (hbase : base ∉ [Text.upperString fromCode, c.settings.rates.primary,
      c.settings.rates.secondary]) :
    (∀ slot, (({ c with cache := { c.cache with slots := c.cache.slots.put base slot } } :
      Converter).resolve fromCode toCode).1 = (c.resolve fromCode toCode).1) ∧
    (({ c with cache := { c.cache with slots := Entries.remove base c.cache.slots } } :
      Converter).resolve fromCode toCode).1 = (c.resolve fromCode toCode).1

/-! ### From the tables to the cached rates -/

/-- The tables that a resolution goes through, by their names. -/
theorem get?_tables
    (hprimary : Text.upperString c.settings.rates.primary = c.settings.rates.primary)
    (hsecondary : Text.upperString c.settings.rates.secondary = c.settings.rates.secondary)
    (name : String) :
    Entries.get? name (c.tables fromCode) =
      if name ∈ [Text.upperString fromCode, c.settings.rates.primary, c.settings.rates.secondary]
      then c.cache.table? name else none := by
  rw [tables, RateCache.get?_lookUpAll, List.map_cons, List.map_cons, List.map_cons, List.map_nil,
    Text.upperString_upperString, hprimary, hsecondary]

section Hubs

variable (hprimary : Text.upperString c.settings.rates.primary = c.settings.rates.primary)
  (hsecondary : Text.upperString c.settings.rates.secondary = c.settings.rates.secondary)

include hprimary hsecondary

theorem direct?_eq :
    (Entries.get? (Text.upperString fromCode) (c.tables fromCode)).bind
      (Entries.get? (Text.upperString toCode)) = c.cache.rate? fromCode toCode := by
  rw [get?_tables hprimary hsecondary, if_pos List.mem_cons_self, RateCache.rate?_eq]

/-- The rates of a reference currency are found if it is one of the two. -/
theorem hub?_eq {hub code : String} (hcapital : Text.upperString hub = hub)
    (hhub : hub ∈ [c.settings.rates.primary, c.settings.rates.secondary]) :
    (Entries.get? hub (c.tables fromCode)).bind (Entries.get? (Text.upperString code)) =
      c.cache.rate? hub code := by
  rw [get?_tables hprimary hsecondary, if_pos (List.mem_cons_of_mem _ hhub), RateCache.rate?_eq,
    hcapital]

theorem cross?_eq_some_iff_bridges {hub : String} (hcapital : Text.upperString hub = hub)
    (hhub : hub ∈ [c.settings.rates.primary, c.settings.rates.secondary])
    {result : Except Decimal.Signal Decimal} :
    Resolution.cross? (c.tables fromCode) hub (Text.upperString fromCode)
        (Text.upperString toCode) = some result ↔
      ∃ dividend divisor, c.cache.Bridges hub fromCode toCode dividend divisor ∧
        result = dividend.div divisor := by
  rw [Resolution.cross?_eq_some_iff]
  simp only [hub?_eq hprimary hsecondary hcapital hhub]
  constructor
  · rintro ⟨dividend, divisor, hdivisor, hdividend, hzero, rfl⟩
    exact ⟨dividend, divisor, ⟨hdivisor, hdividend, hzero⟩, rfl⟩
  · rintro ⟨dividend, divisor, ⟨hdivisor, hdividend, hzero⟩, rfl⟩
    exact ⟨dividend, divisor, hdivisor, hdividend, hzero, rfl⟩

theorem cross?_eq_none {hub : String} (hcapital : Text.upperString hub = hub)
    (hhub : hub ∈ [c.settings.rates.primary, c.settings.rates.secondary])
    (hnone : ∀ dividend divisor, ¬ c.cache.Bridges hub fromCode toCode dividend divisor) :
    Resolution.cross? (c.tables fromCode) hub (Text.upperString fromCode)
        (Text.upperString toCode) = none := by
  rw [Option.eq_none_iff_forall_ne_some]
  intro result hresult
  obtain ⟨dividend, divisor, hbridge, -⟩ :=
    (cross?_eq_some_iff_bridges hprimary hsecondary hcapital hhub).mp hresult
  exact hnone dividend divisor hbridge

theorem resolve_of_direct (hne : Text.upperString fromCode ≠ Text.upperString toCode)
    {rate : Decimal} (hrate : c.cache.rate? fromCode toCode = some rate) :
    (c.resolve fromCode toCode).1 =
      Resolution.checked
        ⟨Text.upperString fromCode, Text.upperString toCode, rate, .direct, none⟩ := by
  rw [resolve_fst_of_ne hne]
  exact Resolution.ofBook_of_direct ((direct?_eq hprimary hsecondary).trans hrate) _ _

theorem resolve_of_route (hne : Text.upperString fromCode ≠ Text.upperString toCode)
    (hnone : c.cache.rate? fromCode toCode = none) {source : Resolution.Source} {hub : String}
    {dividend divisor : Decimal} (hroute : Route c fromCode toCode source hub dividend divisor) :
    (c.resolve fromCode toCode).1 =
      Resolution.ofCross (Text.upperString fromCode) (Text.upperString toCode) hub source
        (dividend.div divisor) := by
  rw [resolve_fst_of_ne hne, Resolution.ofBook, direct?_eq hprimary hsecondary, hnone]
  cases hroute with
  | primary h =>
    have hcross := (cross?_eq_some_iff_bridges hprimary hsecondary hprimary
      List.mem_cons_self).mpr ⟨dividend, divisor, h, rfl⟩
    rw [hcross]
  | secondary hfirst h =>
    have hcross := (cross?_eq_some_iff_bridges hprimary hsecondary hsecondary
      (List.mem_cons_of_mem _ List.mem_cons_self)).mpr ⟨dividend, divisor, h, rfl⟩
    rw [cross?_eq_none hprimary hsecondary hprimary List.mem_cons_self hfirst, hcross]

theorem resolve_of_not_hasRate (hmissing : ¬ HasRate c fromCode toCode) :
    (c.resolve fromCode toCode).1 =
      .ok ⟨Text.upperString fromCode, Text.upperString toCode, .one, .fallback, none⟩ := by
  simp only [HasRate, not_or, Bool.not_eq_true, Option.isSome_eq_false_iff,
    Option.isNone_iff_eq_none, not_exists] at hmissing
  obtain ⟨hne, hnone, hroute⟩ := hmissing
  have hfirst : ∀ dividend divisor,
      ¬ c.cache.Bridges c.settings.rates.primary fromCode toCode dividend divisor :=
    fun dividend divisor h => hroute _ _ dividend divisor (.primary h)
  have hsecond : ∀ dividend divisor,
      ¬ c.cache.Bridges c.settings.rates.secondary fromCode toCode dividend divisor :=
    fun dividend divisor h => hroute _ _ dividend divisor (.secondary hfirst h)
  rw [resolve_fst_of_ne hne, Resolution.ofBook, direct?_eq hprimary hsecondary, hnone,
    cross?_eq_none hprimary hsecondary hprimary List.mem_cons_self hfirst,
    cross?_eq_none hprimary hsecondary hsecondary (List.mem_cons_of_mem _ List.mem_cons_self)
      hsecond]

/-- Whatever tier before the stopgap decides, it does not answer with the stopgap. -/
theorem isFallback_of_hasRate (hrate : HasRate c fromCode toCode) {r : Resolution}
    (h : (c.resolve fromCode toCode).1 = .ok r) : r.isFallback = false := by
  by_cases hsame : Text.upperString fromCode = Text.upperString toCode
  · rw [resolve_fst_of_eq hsame] at h
    cases h
    rfl
  · cases hdirect : c.cache.rate? fromCode toCode with
    | some rate =>
      rw [resolve_of_direct hprimary hsecondary hsame hdirect] at h
      exact Resolution.isFallback_of_checked h
    | none =>
      obtain hidentity | hcached | ⟨source, hub, dividend, divisor, hroute⟩ := hrate
      · exact absurd hidentity hsame
      · rw [hdirect] at hcached
        cases hcached
      · rw [resolve_of_route hprimary hsecondary hsame hdirect hroute] at h
        refine Resolution.isFallback_of_ofCross ?_ h
        cases hroute <;> nofun

/-- The answer depends on the tables of three codes. -/
theorem resolve_fst_congr_tables {d : Converter}
    (hd : d.settings.rates.primary = c.settings.rates.primary)
    (hd' : d.settings.rates.secondary = c.settings.rates.secondary)
    (htables : ∀ base ∈ [Text.upperString fromCode, c.settings.rates.primary,
      c.settings.rates.secondary], d.cache.table? base = c.cache.table? base) :
    (d.resolve fromCode toCode).1 = (c.resolve fromCode toCode).1 := by
  by_cases hsame : Text.upperString fromCode = Text.upperString toCode
  · rw [resolve_fst_of_eq hsame, resolve_fst_of_eq hsame]
  · have hget (name : String) :
        Entries.get? name (d.tables fromCode) = Entries.get? name (c.tables fromCode) := by
      rw [get?_tables hprimary hsecondary,
        get?_tables (c := d) (hd ▸ hprimary) (hd' ▸ hsecondary), hd, hd']
      split
      · next hname => exact htables name hname
      · rfl
    rw [resolve_fst_of_ne hsame, resolve_fst_of_ne hsame, hd, hd']
    simp only [Resolution.ofBook, Resolution.cross?, hget]

end Hubs

/-- A failure to resolve a rate leaves the error as it was. -/
theorem resolve_error_of_error {b : Breakdown} (h : (c.resolve fromCode toCode).1 = .error b) :
    (c.resolve fromCode toCode).2.error = c.error := by
  by_cases hsame : Text.upperString fromCode = Text.upperString toCode
  · rw [resolve_fst_of_eq hsame] at h
    cases h
  · have hbook := (resolve_fst_of_ne hsame).symm.trans h
    simp only [tables] at hbook
    simp only [resolve, hbook]
    rw [if_neg hsame]

theorem resolve_converted (c : Converter) (fromCode toCode : String) :
    (c.resolve fromCode toCode).2.converted = c.converted := by
  simp only [resolve]
  split
  · rfl
  · split
    · split <;> rfl
    · rfl

theorem resolve_error_of_hasRate
    (hprimary : Text.upperString c.settings.rates.primary = c.settings.rates.primary)
    (hsecondary : Text.upperString c.settings.rates.secondary = c.settings.rates.secondary)
    (hrate : HasRate c fromCode toCode) : (c.resolve fromCode toCode).2.error = c.error := by
  cases h : (c.resolve fromCode toCode).1 with
  | error b => exact resolve_error_of_error h
  | ok r => rw [resolve_error h, isFallback_of_hasRate hprimary hsecondary hrate h]; rfl

/-- The quotient of two finite rates, if it is not too large. -/
theorem exists_quotient {dividend divisor : Decimal} (hdividend : dividend.isFinite = true)
    (hdivisor : divisor.isFinite = true) (hzero : divisor.isZero = false)
    (hrange : |Decimal.nearest (dividend.value / divisor.value)| < Decimal.tooLarge) :
    ∃ rate, dividend.div divisor = .ok rate ∧ rate.isFinite = true ∧
      rate.value = Decimal.nearest (dividend.value / divisor.value) := by
  have hrounds := Decimal.rounds_div hdividend hdivisor hzero
  generalize dividend.div divisor = result at hrounds
  cases hrounds with
  | ok hheld hvalue _ => exact ⟨_, rfl, Decimal.isFinite_of_isHeld hheld, hvalue⟩
  | overflow hlarge => exact absurd hrange (not_lt.mpr hlarge)

/-- **Tiers of a rate**: for every converter whose reference currencies are written in capital
letters, and for any two codes, each tier has its rule, the stopgap is reached exactly if no tier
before it has a rate, and only the stopgap changes the error. -/
theorem tierRules_resolve
    (hprimary : Text.upperString c.settings.rates.primary = c.settings.rates.primary)
    (hsecondary : Text.upperString c.settings.rates.secondary = c.settings.rates.secondary)
    (fromCode toCode : String) : TierRules c fromCode toCode where
  identity hsame := by
    rw [resolve_fst_of_eq hsame, Resolution.identity, hsame]
  direct hne rate hrate := resolve_of_direct hprimary hsecondary hne hrate
  cross hne hnone source hub dividend divisor hroute := by
    rw [resolve_of_route hprimary hsecondary hne hnone hroute]
    cases dividend.div divisor <;> rfl
  quotient source hub dividend divisor hroute hdividend hdivisor hrange := by
    have hzero : divisor.isZero = false := by
      cases hroute with
      | primary h => exact h.nonzero
      | secondary _ h => exact h.nonzero
    exact exists_quotient hdividend hdivisor hzero hrange
  stopgap hmissing := resolve_of_not_hasRate hprimary hsecondary hmissing
  found hrate r h := of_decide_eq_false (isFallback_of_hasRate hprimary hsecondary hrate h)
  error := by
    refine ⟨fun hmissing => ?_, resolve_error_of_hasRate hprimary hsecondary⟩
    rw [resolve_error (resolve_of_not_hasRate hprimary hsecondary hmissing)]
    rfl
  kept := ⟨keeps_resolve c fromCode toCode, resolve_converted c fromCode toCode⟩
  depends d hd hd' htables := resolve_fst_congr_tables hprimary hsecondary hd hd' htables
  others base hbase := by
    have hother {code : String} (hcode : code ∈ [Text.upperString fromCode,
        c.settings.rates.primary, c.settings.rates.secondary]) : base ≠ code := by
      rintro rfl
      exact hbase hcode
    constructor
    · intro slot
      refine resolve_fst_congr_tables hprimary hsecondary rfl rfl fun code hcode => ?_
      rw [RateCache.table?, RateCache.table?, Entries.get?_put, if_neg (hother hcode)]
    · refine resolve_fst_congr_tables hprimary hsecondary rfl rfl fun code hcode => ?_
      have hget := Entries.get?_filter code (fun name => decide (name ≠ base)) c.cache.slots
      rw [if_pos (decide_eq_true (hother hcode).symm)] at hget
      exact congrArg (Option.map RateCache.Slot.rates) hget

/-- A code that the settings accept is written in capital letters. -/
theorem upperString_of_code {code : String} (h : Rule.code code = .ok code) :
    Text.upperString code = code := by
  have hcapital := Currency.isCapital_of_isCode (Rule.isCode_of_code h)
  rw [Text.upperString, Text.upper_of_isCapital hcapital, String.ofList_toList]

/-- A converter with the usual settings and the rates of one base currency. -/
def holding (base : String) (rates : List (String × Decimal)) : Converter :=
  .ofSettings .default (.ofConfig Settings.Service.default.client) none
    (RateCache.empty.seed base rates .earliest)

/-- The rates of pounds and yen in euros. -/
def euroRates : List (String × Decimal) :=
  [("GBP", RateTable.withPlaces 85 2), ("JPY", RateTable.withPlaces 160 0)]

/-- Pounds to yen over the second reference currency, as the first one has no table. -/
theorem tierRules_resolve_pounds :
    TierRules (holding "EUR" euroRates) "gbp" "jpy" ∧
      Route (holding "EUR" euroRates) "gbp" "jpy" .crossSecondary "EUR"
        (RateTable.withPlaces 160 0) (RateTable.withPlaces 85 2) := by
  have hrates : Settings.Rates.default.Passes := Settings.Rates.passes_default
  have hprimary : (holding "EUR" euroRates).cache.rate? "USD" "gbp" = none := by decide +kernel
  have hdivisor : (holding "EUR" euroRates).cache.rate? "EUR" "gbp" =
      some (RateTable.withPlaces 85 2) := by decide +kernel
  have hdividend : (holding "EUR" euroRates).cache.rate? "EUR" "jpy" =
      some (RateTable.withPlaces 160 0) := by decide +kernel
  refine ⟨tierRules_resolve (upperString_of_code hrates.primary)
    (upperString_of_code hrates.secondary) "gbp" "jpy",
    .secondary (fun dividend divisor h => ?_) ⟨hdivisor, hdividend, rfl⟩⟩
  have hfound : (holding "EUR" euroRates).cache.rate? "USD" "gbp" = some divisor := h.hasDivisor
  rw [hprimary] at hfound
  cases hfound

/-- A cached rate that is no number is not resolved, not even by a later tier. -/
theorem not_direct_of_nan :
    (holding "USD" [("EUR", .nan false false 0)]).cache.rate? "USD" "EUR" =
        some (.nan false false 0) ∧
      ((holding "USD" [("EUR", .nan false false 0)]).resolve "USD" "EUR").1 =
        .error (.record Resolution.notFinite) ∧
      ((holding "USD" [("EUR", .nan false false 0)]).resolve "USD" "EUR").1 ≠
        .ok ⟨"USD", "EUR", .nan false false 0, .direct, none⟩ := by
  decide +kernel

end Converter

end Cambio
