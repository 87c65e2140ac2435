import Cambio.Entries

/-!
# Broadcasts

Listeners hear the names of properties that changed. A listener may leave as soon as it hears a
certain name. Who listens when a name is sent hears it, even if others leave meanwhile.

## Main definitions

- `Broadcast` — the listeners
- `Broadcast.subscribe`, `Broadcast.remove` — coming and leaving
- `Broadcast.send` — sends a name to all listeners
-/

namespace Cambio

/-- Who hears names of properties. -/
structure Broadcast.Listener where
  number : Nat
  name : String
  /-- The name on which the listener leaves. -/
  last : Option String
  deriving DecidableEq, Repr

/-- The listeners in the order of their coming. -/
structure Broadcast where
  listeners : List Broadcast.Listener
  /-- The count of listeners that ever came. -/
  issued : Nat
  /-- The number of the last listener of each name. -/
  latest : Entries Nat
  deriving DecidableEq, Repr

namespace Broadcast

/-- Nobody listens. -/
def silent : Broadcast := ⟨[], 0, []⟩

/-- Adds a listener. -/
def subscribe (b : Broadcast) (name : String) (last : Option String) : Broadcast where
  listeners := b.listeners ++ [⟨b.issued, name, last⟩]
  issued := b.issued + 1
  latest := b.latest.put name b.issued

/-- Takes the listener of a number away, if it still listens. -/
def remove (b : Broadcast) (number : Nat) : Broadcast :=
  { b with listeners := b.listeners.filter (·.number ≠ number) }

/-- Takes the last listener of a name away; there must have been one. -/
def removeLatest? (b : Broadcast) (name : String) : Option Broadcast :=
  (b.latest.get? name).map b.remove

/-- Sends a name to all listeners; tells who heard it. -/
def send (b : Broadcast) (property : String) : List String × Broadcast :=
  (b.listeners.map Listener.name,
    { b with listeners := b.listeners.filter (·.last ≠ some property) })

end Broadcast

end Cambio
