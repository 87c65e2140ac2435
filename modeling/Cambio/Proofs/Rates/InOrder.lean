import Cambio.Proofs.Rates.Fetched
import Cambio.Proofs.Rates.Sound

/-!
# Tables in order

The tables that calls leave in a cache are sound, each maps its own base to one, and the cache notes
the time of its last refresh, which is the time at which the table of that refresh counts as
fetched. Each refresh and each merge keeps this, whatever it brings.

## Main definitions

- `RateCache.lastRefreshed?` — the base currency of the last refresh
- `RateCache.InOrder` — tables in order, after some calls

## Main statements

- `RateCache.inOrder_seed` — the cache at the start
- `RateCache.InOrder.write` — what one more call keeps
-/

namespace Cambio.RateCache

/-- The base currency of a refresh. -/
def Write.refreshed? : Write → Option String
  | .refresh base _ _ _ => some base
  | .seed .. | .merge .. => none

/-- The base currency that the last refresh of some calls was about. -/
def lastRefreshed? (xs : List Write) : Option String :=
  xs.reverse.findSome? Write.refreshed?

/-- A call that brings rates to a cache that was set up before. -/
def Write.IsLater (x : Write) : Prop :=
  ∀ base table now, x ≠ .seed base table now

/-- Tables in order, after some calls. -/
structure InOrder (xs : List Write) (c : RateCache) : Prop where
  sound : c.IsSound
  selves : ∀ entry ∈ c.slots, Entries.get? entry.1 entry.2.rates = some RateTable.identityRate
  /-- Without a refresh there is no time of the last one. -/
  lastUpdated : c.lastUpdated = (lastRefreshed? xs).bind c.fetchedAt?
  /-- The table of the last refresh is still there. -/
  refreshed : ∀ base, lastRefreshed? xs = some base → (c.fetchedAt? base).isSome

variable {c d : RateCache} {xs : List Write} {x : Write}

theorem lastRefreshed?_append (xs : List Write) (x : Write) :
    lastRefreshed? (xs ++ [x]) = x.refreshed?.or (lastRefreshed? xs) := by
  rw [lastRefreshed?, List.reverse_append, List.reverse_singleton, List.singleton_append,
    List.findSome?_cons, ← lastRefreshed?]
  cases x.refreshed? <;> rfl

theorem InOrder.of_same (h : c.InOrder xs) (hslots : d.slots = c.slots)
    (hlast : d.lastUpdated = c.lastUpdated) : d.InOrder xs := by
  have hfetched : d.fetchedAt? = c.fetchedAt? := by
    funext base
    rw [fetchedAt?, fetchedAt?, slot?, slot?, hslots]
  refine ⟨h.sound.of_slots_eq hslots, ?_, ?_, ?_⟩
  · rw [hslots]
    exact h.selves
  · rw [hlast, hfetched]
    exact h.lastUpdated
  · rw [hfetched]
    exact h.refreshed

/-! ## Own bases -/

/-- A slot that is written with its own base at one. -/
theorem selves_put {slots : Entries Slot} {base : String} {slot : Slot} {rates : RateTable}
    (h : ∀ entry ∈ slots, Entries.get? entry.1 entry.2.rates = some RateTable.identityRate)
    (hrates : slot.rates = withIdentity base rates) :
    ∀ entry ∈ Entries.put base slot slots,
      Entries.get? entry.1 entry.2.rates = some RateTable.identityRate := by
  intro entry hentry
  rcases Entries.mem_of_mem_put hentry with rfl | hbefore
  · rw [hrates]
    exact get?_withIdentity_self base rates
  · exact h entry hbefore

theorem selves_foldl_mergeTable {book : List (String × RateTable)} {now : Moment}
    {state : Entries Slot × Nat}
    (h : ∀ entry ∈ state.1, Entries.get? entry.1 entry.2.rates = some RateTable.identityRate) :
    ∀ entry ∈ (book.foldl (mergeTable now) state).1,
      Entries.get? entry.1 entry.2.rates = some RateTable.identityRate := by
  induction book generalizing state with
  | nil => exact h
  | cons entry book ih => exact ih (selves_put h rfl)

/-! ## One more call -/

/-- A cache that was set up is in order before the first refresh. -/
theorem inOrder_seed {base : String} {table : List (String × Decimal)}
    (htable : ∀ entry ∈ table, entry.2.IsRate) (now : Moment) :
    (empty.seed base table now).InOrder [] where
  sound := IsSound.empty.write (w := .seed base table now) htable
  selves := selves_put nofun rfl
  lastUpdated := rfl
  refreshed := nofun

theorem InOrder.refresh (h : c.InOrder xs) (base : String) {table : List (String × Decimal)}
    (htable : ∀ entry ∈ table, entry.2.IsRate) (minEntries : Int) (now : Moment) :
    (c.refresh base table minEntries now).InOrder (xs ++ [.refresh base table minEntries now]) := by
  have hlast : lastRefreshed? (xs ++ [.refresh base table minEntries now]) = some base := by
    rw [lastRefreshed?_append]
    rfl
  have hfetched : (c.refresh base table minEntries now).fetchedAt? base = some now := by
    rw [fetchedAt?_refresh, if_pos rfl]
  refine ⟨h.sound.write (w := .refresh base table minEntries now) htable,
    selves_put h.selves rfl, ?_, ?_⟩
  · rw [hlast, Option.bind_some, hfetched]
    rfl
  · intro other hother
    rw [hlast] at hother
    cases hother
    rw [hfetched]
    rfl

/-- A merge leaves the tables that were there their times, the one of the last refresh too. -/
theorem InOrder.merge (h : c.InOrder xs) {book : List (String × RateTable)}
    (hbook : ∀ entry ∈ book, ∀ rate ∈ entry.2, rate.2.IsRate) (now : Moment) :
    (c.merge book now).2.InOrder (xs ++ [.merge book now]) := by
  have hlast : lastRefreshed? (xs ++ [.merge book now]) = lastRefreshed? xs := by
    rw [lastRefreshed?_append]
    rfl
  have hfetched (base : String) (hbase : lastRefreshed? xs = some base) :
      (c.merge book now).2.fetchedAt? base = c.fetchedAt? base := by
    obtain ⟨fetched, hbefore⟩ := Option.isSome_iff_exists.mp (h.refreshed base hbase)
    rw [fetchedAt?_merge, hbefore, Option.some_or]
  refine ⟨h.sound.write (w := .merge book now) hbook, selves_foldl_mergeTable h.selves, ?_, ?_⟩
  · have hkept : (c.merge book now).2.lastUpdated = c.lastUpdated := rfl
    rw [hkept, hlast, h.lastUpdated]
    cases hbase : lastRefreshed? xs with
    | none => rfl
    | some base => exact (hfetched base hbase).symm
  · intro base hbase
    rw [hlast] at hbase
    rw [hfetched base hbase]
    exact h.refreshed base hbase

theorem InOrder.write (h : c.InOrder xs) (hx : x.IsSound) (hlater : x.IsLater) :
    (c.write x).InOrder (xs ++ [x]) := by
  cases x with
  | seed base table now => exact absurd rfl (hlater base table now)
  | refresh base table minEntries now => exact h.refresh base hx minEntries now
  | merge book now => exact h.merge hx now

/-! ## Reading -/

variable {entry : String × Slot}

/-- The slot of a cached base currency is found under its name. -/
theorem IsSound.slot? (h : c.IsSound) (hentry : entry ∈ c.slots) :
    c.slot? entry.1 = some entry.2 := by
  rw [RateCache.slot?, h.bases.capitals entry hentry, Entries.get?_of_mem h.bases.names hentry]

theorem InOrder.rate?_self (h : c.InOrder xs) (hentry : entry ∈ c.slots) :
    c.rate? entry.1 entry.1 = some .one := by
  rw [rate?, h.sound.slot? hentry, h.sound.bases.capitals entry hentry, Option.bind_some,
    h.selves entry hentry]
  rfl

theorem InOrder.fetchedAt? (h : c.InOrder xs) (hentry : entry ∈ c.slots) :
    c.fetchedAt? entry.1 = some entry.2.fetchedAt := by
  rw [RateCache.fetchedAt?, h.sound.slot? hentry, Option.map_some]

end Cambio.RateCache
