import Cambio.Proofs.Conversion.Tiers
import Cambio.Proofs.Decimal.Accuracy
import Cambio.Proofs.Rates.InOrder

/-!
# Rates over one reference currency

With the table of the first reference currency alone, a rate is one, a rate of the table as it
stands or a rounded quotient of two of them. Each of these is near the exact quotient of the two
rates. So there and back again is near one, and a detour over a third currency is near the direct
way.

## Main definitions

- `RateCache.IsAnchored` — each table has its own base at one
- `Converter.HasOnlyPrimary` — the only table is that of the first reference currency
- `Converter.Prices` — the value of a rate that is found without a stopgap and without an error

## Main statements

- `RateCache.isAnchored_run` — the tables that calls make are anchored
- `Converter.HasOnlyPrimary.exists_prices` — a rate is near the quotient of two rates of the table
- `Converter.exists_prices_detour` — the rates between three currencies fit together
-/

namespace Cambio

/-! ## The tables that calls make -/

namespace RateCache

/-- Different tables, each with different codes and with its own base at one. -/
structure IsAnchored (c : RateCache) : Prop where
  holds : c.Holds fun _ => True
  selves : ∀ entry ∈ c.slots, Entries.get? entry.1 entry.2.rates = some RateTable.identityRate

variable {c : RateCache}

theorem isAnchored_empty : IsAnchored empty :=
  ⟨⟨.nil, nofun⟩, nofun⟩

theorem IsAnchored.write (h : c.IsAnchored) (w : Write) : (c.write w).IsAnchored := by
  cases w with
  | seed base table now =>
    exact ⟨h.holds.seed trivial base (fun _ _ => trivial) now, selves_put h.selves rfl⟩
  | refresh base table minEntries now =>
    exact ⟨h.holds.refresh trivial base (fun _ _ => trivial) minEntries now,
      selves_put h.selves rfl⟩
  | merge book now =>
    exact ⟨h.holds.merge trivial (fun _ _ _ _ => trivial) now, selves_foldl_mergeTable h.selves⟩

theorem isAnchored_run (ws : List Write) : (run ws).IsAnchored := by
  induction ws using List.reverseRecOn with
  | nil => exact isAnchored_empty
  | append_singleton ws w ih =>
    rw [run, List.foldl_append, ← run]
    exact ih.write w

end RateCache

namespace Converter

variable {c : Converter} {slot : RateCache.Slot} {first second third : String}

/-! ## The table of the first reference currency -/

/-- The only table is that of the first reference currency. Calls have made it, its rates are
    finite and above zero, and their quotients lose no digits. -/
structure HasOnlyPrimary (c : Converter) (slot : RateCache.Slot) : Prop where
  made : ∃ ws, c.cache.slots = (RateCache.run ws).slots
  only : c.cache.slots = [(c.settings.rates.primary, slot)]
  positive : ∀ entry ∈ slot.rates, entry.2.isPositive = true
  normal : ∀ entry ∈ slot.rates, ∀ other ∈ slot.rates,
    Decimal.IsNormal (other.2.value / entry.2.value)

/-- The value of the rate between two codes. There is a rate before the stopgap, it is a number, and
    looking for it does not touch the error. -/
structure Prices (c : Converter) (fromCode toCode : String) (price : ℚ) : Prop where
  resolved : ∃ r, (c.resolve fromCode toCode).1 = .ok r ∧ r.source ≠ .fallback ∧
    r.rate.isFinite = true ∧ r.rate.value = price
  error : (c.resolve fromCode toCode).2.error = c.error

namespace HasOnlyPrimary

theorem upperString_primary (h : c.HasOnlyPrimary slot) :
    Text.upperString c.settings.rates.primary = c.settings.rates.primary := by
  obtain ⟨ws, hmade⟩ := h.made
  refine (RateCache.isAnchored_run ws).holds.bases.capitals (c.settings.rates.primary, slot) ?_
  rw [← hmade, h.only]
  exact List.mem_singleton_self _

theorem get?_primary (h : c.HasOnlyPrimary slot) :
    Entries.get? c.settings.rates.primary slot.rates = some .one := by
  obtain ⟨ws, hmade⟩ := h.made
  refine (RateCache.isAnchored_run ws).selves (c.settings.rates.primary, slot) ?_
  rw [← hmade, h.only]
  exact List.mem_singleton_self _

/-- There are cached rates for the first reference currency only. -/
theorem rate?_eq (h : c.HasOnlyPrimary slot) (base code : String) :
    c.cache.rate? base code =
      if Text.upperString base = c.settings.rates.primary then
        Entries.get? (Text.upperString code) slot.rates
      else none := by
  rw [RateCache.rate?_eq, RateCache.table?, h.only]
  by_cases hbase : Text.upperString base = c.settings.rates.primary
  · rw [if_pos hbase, hbase, Entries.get?, if_pos rfl]
    rfl
  · rw [if_neg hbase, Entries.get?, if_neg (Ne.symm hbase)]
    rfl

theorem bridges (h : c.HasOnlyPrimary slot) {divisor dividend : Decimal}
    (hdivisor : Entries.get? (Text.upperString first) slot.rates = some divisor)
    (hdividend : Entries.get? (Text.upperString second) slot.rates = some dividend) :
    c.cache.Bridges c.settings.rates.primary first second dividend divisor where
  hasDivisor := by rw [h.rate?_eq, if_pos h.upperString_primary, hdivisor]
  hasDividend := by rw [h.rate?_eq, if_pos h.upperString_primary, hdividend]
  nonzero := Decimal.isZero_of_isPositive (h.positive _ (Entries.mem_of_get? hdivisor))

/-- A rate is near the quotient of the two rates over the first reference currency. -/
theorem exists_prices (h : c.HasOnlyPrimary slot)
    (hsecondary : Text.upperString c.settings.rates.secondary = c.settings.rates.secondary)
    {divisor dividend : Decimal}
    (hdivisor : Entries.get? (Text.upperString first) slot.rates = some divisor)
    (hdividend : Entries.get? (Text.upperString second) slot.rates = some dividend) :
    ∃ price, c.Prices first second price ∧
      Decimal.IsNear price (dividend.value / divisor.value) := by
  have hprimary := h.upperString_primary
  have hpositive := h.positive _ (Entries.mem_of_get? hdivisor)
  have hpositive' := h.positive _ (Entries.mem_of_get? hdividend)
  have hlow := Decimal.value_pos_of_isPositive hpositive
  have hlow' := Decimal.value_pos_of_isPositive hpositive'
  have hfinite := Decimal.isFinite_of_isPositive hpositive
  have hfinite' := Decimal.isFinite_of_isPositive hpositive'
  have hbridges := h.bridges hdivisor hdividend
  have hrate : HasRate c first second := .inr (.inr ⟨_, _, _, _, .primary hbridges⟩)
  have herror := resolve_error_of_hasRate hprimary hsecondary hrate
  by_cases hsame : Text.upperString first = Text.upperString second
  · -- a currency buys itself at one
    have hequal : dividend = divisor := by
      rw [hsame, hdividend] at hdivisor
      exact Option.some.inj hdivisor
    refine ⟨1, ⟨⟨_, resolve_fst_of_eq hsame, nofun, rfl, Decimal.value_one⟩, herror⟩, ?_⟩
    rw [hequal, div_self hlow.ne']
    exact Decimal.isNear_refl zero_le_one
  · by_cases hbase : Text.upperString first = c.settings.rates.primary
    · -- a rate of the table, which is divided by one
      have hone : divisor = .one := by
        rw [hbase, h.get?_primary] at hdivisor
        exact (Option.some.inj hdivisor).symm
      have hdirect : c.cache.rate? first second = some dividend := by
        rw [h.rate?_eq, if_pos hbase, hdividend]
      have hresolved := (resolve_of_direct hprimary hsecondary hsame hdirect).trans
        (if_pos hfinite')
      refine ⟨dividend.value, ⟨⟨_, hresolved, nofun, hfinite', rfl⟩, herror⟩, ?_⟩
      rw [hone, Decimal.value_one, div_one]
      exact Decimal.isNear_refl hlow'.le
    · -- a quotient, which is rounded
      have hnone : c.cache.rate? first second = none := by rw [h.rate?_eq, if_neg hbase]
      have hnormal := h.normal _ (Entries.mem_of_get? hdivisor) _ (Entries.mem_of_get? hdividend)
      obtain ⟨rate, hquotient, hrateFinite, hvalue⟩ :=
        exists_quotient hfinite' hfinite hbridges.nonzero hnormal.high
      have hresolved := resolve_of_route hprimary hsecondary hsame hnone (.primary hbridges)
      rw [hquotient] at hresolved
      exact ⟨_, ⟨⟨_, hresolved.trans (if_pos hrateFinite), nofun, hrateFinite, hvalue⟩, herror⟩,
        hnormal.isNear (div_pos hlow' hlow)⟩

end HasOnlyPrimary

/-- **Rates fit together**: with the table of the first reference currency alone, all rates between
    three of its codes are found, there and back again is near one, and the detour over the second
    code is near the way without it. The second reference currency is in capitals, as accepted
    settings always have it. -/
theorem exists_prices_detour (h : c.HasOnlyPrimary slot)
    (hsecondary : Text.upperString c.settings.rates.secondary = c.settings.rates.secondary)
    (hfirst : Text.upperString first ∈ Entries.names slot.rates)
    (hsecond : Text.upperString second ∈ Entries.names slot.rates)
    (hthird : Text.upperString third ∈ Entries.names slot.rates) :
    ∃ there back onward direct,
      c.Prices first second there ∧ c.Prices second first back ∧
      c.Prices second third onward ∧ c.Prices first third direct ∧
      |there * back - 1| ≤ 2 / 10 ^ 27 ∧
      |there * onward - direct| ≤ 2 / 10 ^ 27 * direct := by
  obtain ⟨x, hx⟩ := Option.isSome_iff_exists.mp (Entries.has_iff_mem_names.mpr hfirst)
  obtain ⟨y, hy⟩ := Option.isSome_iff_exists.mp (Entries.has_iff_mem_names.mpr hsecond)
  obtain ⟨z, hz⟩ := Option.isSome_iff_exists.mp (Entries.has_iff_mem_names.mpr hthird)
  have hxpos := Decimal.value_pos_of_isPositive (h.positive _ (Entries.mem_of_get? hx))
  have hypos := Decimal.value_pos_of_isPositive (h.positive _ (Entries.mem_of_get? hy))
  have hzpos := Decimal.value_pos_of_isPositive (h.positive _ (Entries.mem_of_get? hz))
  obtain ⟨there, hthere, hthereNear⟩ := h.exists_prices hsecondary hx hy
  obtain ⟨back, hback, hbackNear⟩ := h.exists_prices hsecondary hy hx
  obtain ⟨onward, honward, honwardNear⟩ := h.exists_prices hsecondary hy hz
  obtain ⟨direct, hdirect, hdirectNear⟩ := h.exists_prices hsecondary hx hz
  have hinverse : y.value / x.value * (x.value / y.value) = 1 :=
    (div_mul_div_cancel₀ hxpos.ne').trans (div_self hypos.ne')
  have hdetour : y.value / x.value * (z.value / y.value) = z.value / x.value := by
    rw [mul_comm, div_mul_div_cancel₀ hypos.ne']
  rw [← hdetour] at hdirectNear
  refine ⟨there, back, onward, direct, hthere, hback, honward, hdirect, ?_, ?_⟩
  · exact hthereNear.abs_mul_sub_one_le hbackNear (div_pos hypos hxpos) (div_pos hxpos hypos)
      hinverse
  · exact hthereNear.abs_mul_sub_le honwardNear hdirectNear (div_pos hypos hxpos)
      (div_pos hzpos hypos)

/-- The rates of euros, pounds and yen in dollars. -/
def dollarRates : List (String × Decimal) :=
  [("EUR", RateTable.withPlaces 92 2), ("GBP", RateTable.withPlaces 79 2),
    ("JPY", RateTable.withPlaces 14550 2)]

theorem hasOnlyPrimary_dollars : (holding "USD" dollarRates).HasOnlyPrimary
    ⟨RateCache.withIdentity "USD" dollarRates, .earliest⟩ where
  made := ⟨[.seed "USD" dollarRates .earliest], rfl⟩
  only := by decide +kernel
  positive := by decide +kernel
  normal := by
    have hbetween : ∀ entry ∈ RateCache.withIdentity "USD" dollarRates,
        ∀ other ∈ RateCache.withIdentity "USD" dollarRates,
          1 / 10 ^ 3 ≤ |Decimal.nearest (other.2.value / entry.2.value)| ∧
            |Decimal.nearest (other.2.value / entry.2.value)| ≤ 10 ^ 3 := by
      decide +kernel
    intro entry hentry other hother
    obtain ⟨hlow, hhigh⟩ := hbetween entry hentry other hother
    exact Decimal.isNormal_of_between (by decide) hlow hhigh

/-- Euros to pounds and back, and on to yen, with two quotients that are rounded. -/
theorem exists_prices_detour_dollars :
    ∃ there back onward direct,
      (holding "USD" dollarRates).Prices "eur" "GBP" there ∧
      (holding "USD" dollarRates).Prices "GBP" "eur" back ∧
      (holding "USD" dollarRates).Prices "GBP" "JPY" onward ∧
      (holding "USD" dollarRates).Prices "eur" "JPY" direct ∧
      |there * back - 1| ≤ 2 / 10 ^ 27 ∧
      |there * onward - direct| ≤ 2 / 10 ^ 27 * direct :=
  exists_prices_detour hasOnlyPrimary_dollars
    (upperString_of_code Settings.Rates.passes_default.secondary) (by decide +kernel)
    (by decide +kernel) (by decide +kernel)

end Converter

end Cambio
