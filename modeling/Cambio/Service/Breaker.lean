import Cambio.Json.Moment

/-!
# The breaker

After too many failures in a row the breaker opens and keeps requests back. When it has cooled
down it lets one request through to try: a failure opens it again, a success closes it.

## Main definitions

- `Breaker` — the failures in a row and the state that follows from them
- `Breaker.pass?` — lets a request through or keeps it back
- `Breaker.failed`, `Breaker.succeeded` — what an attempt did
-/

namespace Cambio

/-- What the breaker does with requests. -/
inductive Breaker.State where
  /-- Requests go through. -/
  | closed
  /-- Requests are kept back. -/
  | opened
  /-- The next request decides. -/
  | halfOpen
  deriving DecidableEq, Repr

/-- The written name of a state. -/
def Breaker.State.name : Breaker.State → String
  | .closed => "closed"
  | .opened => "open"
  | .halfOpen => "half_open"

/-- Failures in a row and what follows from them. -/
structure Breaker where
  failures : Nat
  lastFailure : Option Moment
  state : Breaker.State
  deriving DecidableEq, Repr

namespace Breaker

/-- A breaker that has seen no failure. -/
def fresh : Breaker := ⟨0, none, .closed⟩

/-- Counts a failure. -/
def countFailure (b : Breaker) (now : Moment) : Breaker :=
  { b with failures := b.failures + 1, lastFailure := some now }

/-- Keeps requests back from now on. -/
def trip (b : Breaker) : Breaker :=
  { b with state := .opened }

/-- Lets the next request decide. -/
def halfOpen (b : Breaker) : Breaker :=
  { b with state := .halfOpen }

/-- An open breaker has cooled down when the last failure is longer ago than that many
    seconds. -/
def hasCooled (b : Breaker) (cooldown : Nat) (now : Moment) : Bool :=
  b.lastFailure.any fun last => cooldown * 1000000 < now.microsSince last

/-- Lets a request through, or keeps it back with nothing in return. -/
def pass? (b : Breaker) (cooldown : Nat) (now : Moment) : Option Breaker :=
  if b.state ≠ .opened then some b
  else if b.hasCooled cooldown now then some b.halfOpen
  else none

/-- An attempt failed: the breaker opens if it was trying or has seen enough failures. -/
def failed (b : Breaker) (threshold : Nat) (now : Moment) : Breaker :=
  let b := b.countFailure now
  if b.state = .halfOpen ∨ threshold ≤ b.failures then b.trip else b

/-- An attempt succeeded: all failures are forgotten. -/
def succeeded (b : Breaker) : Breaker :=
  if b.state ≠ .closed ∨ b.failures ≠ 0 then fresh else b

/-- The breaker as a document. -/
def toJson (b : Breaker) : Json :=
  .object [
    ("failures", .whole b.failures),
    ("last_failure", .ofOption Moment.toJson b.lastFailure),
    ("state", .text b.state.name),
    ("closed", .bool (b.state = .closed)),
    ("open", .bool (b.state = .opened)),
    ("half_open", .bool (b.state = .halfOpen))]

end Breaker

end Cambio
