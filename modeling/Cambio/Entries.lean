/-!
# Entries in order

A finite map from names that remembers the order in which its names first came: writing to a
name that is present replaces its entry in place, writing to a new one adds it at the end.

## Main definitions

- `Entries` — the maps, as lists of pairs
- `Entries.put`, `Entries.get?`, `Entries.has` — writing and reading
- `Entries.ofPairs` — the map of a list of pairs, of which later ones win
- `Entries.sorted` — the entries in the order of their names
-/

namespace Cambio

/-- A map from names in order of their first coming. -/
abbrev Entries (α : Type) := List (String × α)

namespace Entries

variable {α : Type}

/-- The entry of a name. -/
def get? (name : String) : Entries α → Option α
  | [] => none
  | (n, x) :: rest => if n = name then some x else get? name rest

/-- A name has an entry. -/
def has (name : String) (es : Entries α) : Bool :=
  (get? name es).isSome

/-- Writes the entry of a name. -/
def put (name : String) (value : α) : Entries α → Entries α
  | [] => [(name, value)]
  | (n, x) :: rest => if n = name then (n, value) :: rest else (n, x) :: put name value rest

/-- The names in order. -/
def names (es : Entries α) : List String :=
  es.map Prod.fst

/-- Writes a list of pairs, one after the other. -/
def putAll (es : Entries α) (pairs : List (String × α)) : Entries α :=
  pairs.foldl (fun es p => put p.1 p.2 es) es

/-- The map of a list of pairs; among pairs of one name the last one wins. -/
def ofPairs (pairs : List (String × α)) : Entries α :=
  putAll [] pairs

/-- Takes away the entry of a name. -/
def remove (name : String) (es : Entries α) : Entries α :=
  es.filter (·.1 ≠ name)

/-- The entries in the order of their names. -/
def sorted (es : Entries α) : Entries α :=
  es.mergeSort fun a b => a.1 ≤ b.1

end Entries

end Cambio
