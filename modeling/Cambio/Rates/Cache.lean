import Cambio.Binary64.Arithmetic
import Cambio.Json.Moment
import Cambio.Rates.Table

/-!
# The rate cache

The cache holds one rate table for each base currency and the time at which it was fetched. A
refresh replaces a table; a refresh with too few rates keeps the older ones that it does not
mention. A merge adds what is missing and replaces nothing. Every table maps its own base to one.

## Main definitions

- `RateCache` — the tables with their times and the counts of what happened to them
- `RateCache.seed`, `RateCache.refresh`, `RateCache.merge` — the three ways to write
- `RateCache.lookUp`, `RateCache.lookUpAll` — reading that counts hits and misses
- `RateCache.rate?`, `RateCache.book` — reading that counts nothing
- `RateCache.isStale` — a table is missing or too old
-/

namespace Cambio

/-- A table of the cache and the time at which it was fetched. -/
structure RateCache.Slot where
  rates : RateTable
  fetchedAt : Moment
  deriving DecidableEq, Repr

/-- Rate tables by base currency. -/
structure RateCache where
  slots : Entries RateCache.Slot
  /-- The time of the last refresh of any table. -/
  lastUpdated : Option Moment
  hits : Nat
  misses : Nat
  refreshes : Nat
  backfills : Nat
  merges : Nat
  deriving DecidableEq, Repr

namespace RateCache

/-- A cache without tables. -/
def empty : RateCache := ⟨[], none, 0, 0, 0, 0, 0⟩

/-! ## Reading -/

/-- The slot of a base currency. -/
def slot? (c : RateCache) (base : String) : Option Slot :=
  c.slots.get? (Text.upperString base)

/-- All tables. -/
def book (c : RateCache) : RateBook :=
  c.slots.map fun (base, slot) => (base, slot.rates)

/-- The base currencies in the order of their first coming. -/
def bases (c : RateCache) : List String :=
  Entries.names c.slots

/-- A base currency has a table. -/
def hasTable (c : RateCache) (base : String) : Bool :=
  (c.slot? base).isSome

/-- The cached rate from a base currency to a target. -/
def rate? (c : RateCache) (base target : String) : Option Decimal :=
  (c.slot? base).bind fun slot => Entries.get? (Text.upperString target) slot.rates

/-- The table of a base currency; a hit or a miss is counted. -/
def lookUp (c : RateCache) (base : String) : Option RateTable × RateCache :=
  match c.slot? base with
  | some slot => (some slot.rates, { c with hits := c.hits + 1 })
  | none => (none, { c with misses := c.misses + 1 })

/-- The tables of several base currencies, as many as there are. -/
def lookUpAll (c : RateCache) : List String → RateBook × RateCache
  | [] => ([], c)
  | base :: rest =>
    let (table, c) := c.lookUp base
    let (found, c) := c.lookUpAll rest
    match table with
    | some table => (Entries.putAll [(Text.upperString base, table)] found, c)
    | none => (found, c)

/-- The table of a base currency is missing, or more microseconds old than allowed. -/
def isStale (c : RateCache) (base : String) (now : Moment) (maxAge : Int) : Bool :=
  match c.slot? base with
  | some slot => maxAge < now.microsSince slot.fetchedAt
  | none => true

/-- The count of tables that were looked up. -/
def lookUps (c : RateCache) : Nat :=
  c.hits + c.misses

/-- The share of looked up tables that were there. -/
def hitRate (c : RateCache) : Binary64 :=
  if c.lookUps = 0 then .zero else .ratioOf c.hits c.lookUps

/-! ## Writing -/

/-- The table of a base currency maps the base to one. -/
def withIdentity (base : String) (rates : RateTable) : RateTable :=
  Entries.put base RateTable.identityRate rates

/-- Installs a table when the cache is set up; this is no refresh. -/
def seed (c : RateCache) (base : String) (table : List (String × Decimal)) (now : Moment) :
    RateCache :=
  let base := Text.upperString base
  { c with slots := c.slots.put base ⟨withIdentity base (RateTable.capitalized table), now⟩ }

/-- The cached rates that a fresh table does not mention. -/
def missing (previous fresh : RateTable) : RateTable :=
  previous.filter fun entry => !Entries.has entry.1 fresh

/-- Replaces the table of a base currency by a fresh one. A fresh table with fewer than
    `minEntries` rates keeps the cached rates that it does not mention. -/
def refresh (c : RateCache) (base : String) (table : List (String × Decimal)) (minEntries : Int)
    (now : Moment) : RateCache :=
  let base := Text.upperString base
  let fresh := RateTable.capitalized table
  let previous := ((c.slots.get? base).map Slot.rates).getD []
  let short := (fresh.length : Int) < minEntries && !previous.isEmpty
  let rates := if short then missing previous fresh ++ fresh else fresh
  { c with
    slots := c.slots.put base ⟨withIdentity base rates, now⟩
    lastUpdated := some now
    refreshes := c.refreshes + 1
    backfills := if short then c.backfills + 1 else c.backfills }

/-- Adds a rate unless there is one; tells how many were added. -/
def addRate (state : RateTable × Nat) (entry : String × Decimal) : RateTable × Nat :=
  let (rates, added) := state
  let code := Text.upperString entry.1
  if Entries.has code rates then (rates, added) else (rates ++ [(code, entry.2)], added + 1)

/-- Adds the rates that are missing from the table of a base currency. A table that was not
    there counts as fetched at `now`. -/
def mergeTable (now : Moment) (state : Entries Slot × Nat) (entry : String × RateTable) :
    Entries Slot × Nat :=
  let (slots, added) := state
  let base := Text.upperString entry.1
  let slot := (slots.get? base).getD ⟨[], now⟩
  let (rates, added) := entry.2.foldl addRate (slot.rates, added)
  (slots.put base { slot with rates := withIdentity base rates }, added)

/-- Adds all rates that are missing; tells how many were added. -/
def merge (c : RateCache) (book : List (String × RateTable)) (now : Moment) : Nat × RateCache :=
  let (slots, added) := book.foldl (mergeTable now) (c.slots, 0)
  (added, { c with slots := slots, merges := c.merges + 1 })

/-- What happened to the cache, as a document. -/
def status (c : RateCache) : Json :=
  .object [
    ("last_updated", .ofOption Moment.toJson c.lastUpdated),
    ("hits", .whole c.hits),
    ("misses", .whole c.misses),
    ("refreshes", .whole c.refreshes),
    ("backfills", .whole c.backfills),
    ("merges", .whole c.merges),
    ("total", .whole c.lookUps),
    ("hit_rate", .binary c.hitRate)]

end RateCache

end Cambio
