import Cambio.Conversion.Converter
import Cambio.Proofs.Entries
import Cambio.Proofs.Except
import Cambio.Proofs.Schema

/-!
# Usable rates

A rate is usable if it is finite and above zero. The rate service cannot bring any other rate, and
no way to write to the cache makes one.

## Main definitions

- `RateTable.IsUsable`, `RateBook.IsUsable`, `RateCache.IsUsable` — all rates are usable

## Main statements

- `RateTable.checked_eq_valid_iff` — which rates make a table
- `Client.isUsable_of_rates` — the rates that are brought
- `RateCache.IsUsable.refresh` — the rates after a refresh
- `RateCache.IsUsable.lookUpAll` — the rates that are found
-/

namespace Cambio

/-- Every rate of a table is finite and above zero. -/
def RateTable.IsUsable (table : List (String × Decimal)) : Prop :=
  ∀ entry ∈ table, entry.2.isPositive = true

/-- Every rate of every table is finite and above zero. -/
def RateBook.IsUsable (book : RateBook) : Prop :=
  ∀ entry ∈ book, RateTable.IsUsable entry.2

/-- Every rate of the cache is finite and above zero. -/
def RateCache.IsUsable (c : RateCache) : Prop :=
  ∀ entry ∈ c.slots, RateTable.IsUsable entry.2.rates

instance (table : List (String × Decimal)) : Decidable (RateTable.IsUsable table) :=
  inferInstanceAs (Decidable (∀ entry ∈ table, entry.2.isPositive = true))

instance (c : RateCache) : Decidable c.IsUsable :=
  inferInstanceAs (Decidable (∀ entry ∈ c.slots, RateTable.IsUsable entry.2.rates))

/-! ## Tables -/

namespace RateTable

variable {table : List (String × Decimal)} {base : String}

theorem IsUsable.capitalized (h : IsUsable table) : IsUsable (capitalized table) := by
  intro entry hentry
  obtain ⟨before, hbefore, rfl⟩ := List.mem_map.mp (Entries.mem_of_mem_ofPairs hentry)
  exact h before hbefore

theorem IsUsable.withIdentity (h : IsUsable table) :
    IsUsable (RateCache.withIdentity base table) := by
  intro entry hentry
  rcases Entries.mem_of_mem_put hentry with rfl | hbefore
  · rfl
  · exact h entry hbefore

theorem IsUsable.append {more : List (String × Decimal)} (h : IsUsable table)
    (hmore : IsUsable more) : IsUsable (table ++ more) := by
  intro entry hentry
  rcases List.mem_append.mp hentry with hfirst | hsecond
  · exact h entry hfirst
  · exact hmore entry hsecond

theorem IsUsable.missing {fresh : RateTable} (h : IsUsable table) :
    IsUsable (RateCache.missing table fresh) :=
  fun entry hentry => h entry (List.mem_of_mem_filter hentry)

theorem IsUsable.get? {name : String} {rate : Decimal} (h : IsUsable table)
    (hget : Entries.get? name table = some rate) : rate.isPositive = true :=
  h _ (Entries.mem_of_get? hget)

/-- A table is normalized exactly if it is usable. -/
theorem normalize_eq_ok_iff {rates : RateTable} :
    normalize table = .ok rates ↔ IsUsable table ∧ rates = capitalized table := by
  unfold normalize
  split
  · next code rate hfound =>
    refine iff_of_false nofun ?_
    rintro ⟨husable, -⟩
    have hbad := List.find?_some hfound
    rw [husable _ (List.mem_of_find?_eq_some hfound)] at hbad
    cases hbad
  · next hnone =>
    have husable : IsUsable table := fun entry hentry => by
      simpa using List.find?_eq_none.mp hnone entry hentry
    rw [Except.ok.injEq]
    exact ⟨fun h => ⟨husable, h.symm⟩, fun h => h.2.symm⟩

end RateTable

/-! ## Answers of the rate service -/

theorem RateTable.checked_eq_valid_iff {rates : List (String × Decimal)} {table : RateTable} :
    RateTable.checked rates = .valid table ↔
      RateTable.IsUsable rates ∧ table = RateTable.capitalized rates := by
  rw [RateTable.checked, Checked.ofRule_eq_valid_iff, Except.mapError_eq_ok_iff,
    RateTable.normalize_eq_ok_iff]

/-- A single unusable rate refuses a whole answer. -/
theorem RateAnswer.isUsable_of_ofJson {v : Json} {table : RateTable}
    (h : RateAnswer.ofJson v = .ok table) : RateTable.IsUsable table := by
  obtain ⟨members, _, hdata⟩ := Checked.andThen_eq_valid_iff.mp (Checked.toExcept_eq_ok_iff.mp h)
  unfold Schema.required at hdata
  split at hdata
  · obtain ⟨rates, _, hrates⟩ :=
      Checked.andThen_eq_valid_iff.mp (Checked.under_eq_valid_iff.mp hdata)
    split at hrates
    · cases hrates
    · obtain ⟨husable, rfl⟩ := RateTable.checked_eq_valid_iff.mp hrates
      exact husable.capitalized
  · cases hdata

/-- The rate service brings usable rates or none. -/
theorem Client.isUsable_of_rates {c : Client} {base : String} {targets : List String}
    {ch : Channel} {table : RateTable} (h : (c.rates base targets ch).1 = .done table) :
    RateTable.IsUsable table := by
  unfold Client.rates at h
  split at h
  · split at h
    · next hanswer =>
      cases h
      exact RateAnswer.isUsable_of_ofJson hanswer
    · cases h
  · cases h
  · cases h
  · cases h

/-! ## The cache -/

namespace RateCache

variable {c : RateCache} {base : String} {table : List (String × Decimal)}

theorem IsUsable.of_slots_eq {d : RateCache} (h : c.IsUsable) (hslots : d.slots = c.slots) :
    d.IsUsable := by
  intro entry hentry
  rw [hslots] at hentry
  exact h entry hentry

theorem IsUsable.put (h : c.IsUsable) (slot : Slot) (hslot : RateTable.IsUsable slot.rates) :
    IsUsable { c with slots := c.slots.put base slot } := by
  intro entry hentry
  rcases Entries.mem_of_mem_put hentry with rfl | hbefore
  · exact hslot
  · exact h entry hbefore

theorem IsUsable.seed (h : c.IsUsable) (htable : RateTable.IsUsable table) (now : Moment) :
    (c.seed base table now).IsUsable :=
  h.put ⟨_, now⟩ htable.capitalized.withIdentity

/-- The rates of a base currency, or none at all. -/
theorem IsUsable.previous (h : c.IsUsable) :
    RateTable.IsUsable (((c.slots.get? base).map Slot.rates).getD []) := by
  cases hslot : c.slots.get? base with
  | none => exact fun entry hentry => absurd hentry List.not_mem_nil
  | some slot => exact h _ (Entries.mem_of_get? hslot)

/-- A refresh with usable rates keeps the cache usable, also if it keeps some of the rates that
    were there. -/
theorem IsUsable.refresh (h : c.IsUsable) (htable : RateTable.IsUsable table) (minEntries : Int)
    (now : Moment) : (c.refresh base table minEntries now).IsUsable := by
  refine h.put ⟨_, now⟩ (RateTable.IsUsable.withIdentity ?_)
  split
  · exact h.previous.missing.append htable.capitalized
  · exact htable.capitalized

/-- Looking up counts a hit or a miss, and nothing else. -/
theorem lookUp_slots (c : RateCache) (base : String) : (c.lookUp base).2.slots = c.slots := by
  unfold lookUp
  split <;> rfl

theorem lookUp_lastUpdated (c : RateCache) (base : String) :
    (c.lookUp base).2.lastUpdated = c.lastUpdated := by
  unfold lookUp
  split <;> rfl

/-- The table of a base currency comes before those that are looked up after it. -/
theorem lookUpAll_cons (c : RateCache) (base : String) (rest : List String) :
    c.lookUpAll (base :: rest) =
      (match c.slot? base with
        | some slot => Entries.putAll [(Text.upperString base, slot.rates)]
            ((c.lookUp base).2.lookUpAll rest).1
        | none => ((c.lookUp base).2.lookUpAll rest).1,
      ((c.lookUp base).2.lookUpAll rest).2) := by
  cases hslot : c.slot? base <;> simp only [lookUpAll, lookUp, hslot]

theorem lookUpAll_slots (c : RateCache) (bases : List String) :
    (c.lookUpAll bases).2.slots = c.slots := by
  induction bases generalizing c with
  | nil => rfl
  | cons base bases ih => rw [lookUpAll_cons, ih, lookUp_slots]

theorem lookUpAll_lastUpdated (c : RateCache) (bases : List String) :
    (c.lookUpAll bases).2.lastUpdated = c.lastUpdated := by
  induction bases generalizing c with
  | nil => rfl
  | cons base bases ih => rw [lookUpAll_cons, ih, lookUp_lastUpdated]

/-- What is found depends on the tables alone. -/
theorem lookUpAll_fst_congr {c d : RateCache} (h : c.slots = d.slots) (bases : List String) :
    (c.lookUpAll bases).1 = (d.lookUpAll bases).1 := by
  induction bases generalizing c d with
  | nil => rfl
  | cons base bases ih =>
    have hrest : (c.lookUp base).2.slots = (d.lookUp base).2.slots := by
      rw [lookUp_slots, lookUp_slots, h]
    have hfirst : c.slot? base = d.slot? base := by rw [slot?, slot?, h]
    rw [lookUpAll_cons, lookUpAll_cons, ih hrest, hfirst]

/-- The tables that are found are tables of the cache. -/
theorem mem_slots_of_mem_lookUpAll {c : RateCache} {bases : List String} {entry : String × RateTable}
    (h : entry ∈ (c.lookUpAll bases).1) : ∃ slot ∈ c.slots, entry.2 = slot.2.rates := by
  induction bases generalizing c with
  | nil => cases h
  | cons base bases ih =>
    have hrest (hfound : entry ∈ ((c.lookUp base).2.lookUpAll bases).1) :
        ∃ slot ∈ c.slots, entry.2 = slot.2.rates := by
      have hslot := ih hfound
      rwa [lookUp_slots] at hslot
    rw [lookUpAll_cons] at h
    cases hslot : c.slot? base with
    | none =>
      rw [hslot] at h
      exact hrest h
    | some slot =>
      rw [hslot] at h
      rcases Entries.mem_of_mem_putAll h with hfound | hfirst
      · exact hrest hfound
      · exact ⟨_, Entries.mem_of_get? hslot, by rw [List.mem_singleton.mp hfirst]⟩

theorem IsUsable.lookUpAll (h : c.IsUsable) (bases : List String) :
    RateBook.IsUsable (c.lookUpAll bases).1 := by
  intro entry hentry
  obtain ⟨slot, hslot, hrates⟩ := mem_slots_of_mem_lookUpAll hentry
  rw [hrates]
  exact h slot hslot

end RateCache

end Cambio
