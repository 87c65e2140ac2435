import Cambio.Proofs.Rates.Supply

/-!
# When tables count as fetched

A refresh makes its table count as fetched at its own time, whatever was there. A merge gives a time
to the tables that it adds, and leaves those that were there their own. That time is all that
staleness depends on.

## Main definitions

- `RateCache.fetchedAt?` — the time at which the table of a base currency was fetched

## Main statements

- `RateCache.fetchedAt?_refresh`, `RateCache.fetchedAt?_merge` — the times after a write
- `RateCache.isStale_iff` — staleness, by the time
-/

namespace Cambio.RateCache

/-- The time at which the table of a base currency was fetched, if there is one. -/
def fetchedAt? (c : RateCache) (base : String) : Option Moment :=
  (c.slot? base).map Slot.fetchedAt

theorem isStale_iff {c : RateCache} {base : String} {now : Moment} {maxAge : Int} :
    c.isStale base now maxAge = true ↔
      ∀ fetched, c.fetchedAt? base = some fetched → maxAge < now.microsSince fetched := by
  unfold isStale fetchedAt?
  cases c.slot? base <;> simp

theorem fetchedAt?_refresh (c : RateCache) (base : String) (table : List (String × Decimal))
    (minEntries : Int) (now : Moment) (other : String) :
    (c.refresh base table minEntries now).fetchedAt? other =
      if Text.upperString base = Text.upperString other then some now
      else c.fetchedAt? other := by
  have hslot : (c.refresh base table minEntries now).slot? other = _ :=
    Entries.get?_put (Text.upperString other)
  rw [fetchedAt?, hslot]
  split <;> rfl

/-- What is merged into a slot leaves it its time. -/
theorem fetchedAt_filled (now : Moment) (base : String) (slot : Option Slot) (table : RateTable) :
    (filled now base slot table).fetchedAt = (slot.map Slot.fetchedAt).getD now := by
  cases slot <;> rfl

theorem map_fetchedAt_foldl_mergeTable (now : Moment) (base : String)
    (book : List (String × RateTable)) (state : Entries Slot × Nat) :
    (Entries.get? base (book.foldl (mergeTable now) state).1).map Slot.fetchedAt =
      ((Entries.get? base state.1).map Slot.fetchedAt).or
        (if (tableOf? base book).isSome then some now else none) := by
  induction book generalizing state with
  | nil => simp [tableOf?]
  | cons entry book ih =>
    rw [List.foldl_cons, ih, get?_mergeTable, tableOf?_cons]
    split
    · rw [Option.map_some, fetchedAt_filled]
      cases Entries.get? base state.1 <;> rfl
    · rfl

theorem fetchedAt?_merge (c : RateCache) (book : List (String × RateTable)) (now : Moment)
    (base : String) :
    (c.merge book now).2.fetchedAt? base =
      (c.fetchedAt? base).or
        (if (tableOf? (Text.upperString base) book).isSome then some now else none) :=
  map_fetchedAt_foldl_mergeTable now (Text.upperString base) book (c.slots, 0)

end Cambio.RateCache
