import Cambio.Binary64.Arithmetic
import Cambio.Json.Moment

/-!
# Metrics of attempts

How many attempts were made, how they ended and how long they took on average.

## Main definitions

- `Metrics` — the counts, the average and the times of the last attempts
- `Metrics.record` — counts an attempt
- `Metrics.successRate`, `Metrics.failureRate` — shares in hundredths
-/

namespace Cambio

/-- Counts of attempts and how long they took. -/
structure Metrics where
  total : Nat
  succeeded : Nat
  failed : Nat
  /-- Seconds that an attempt took on average. -/
  average : Binary64
  lastRequest : Option Moment
  lastSuccess : Option Moment
  deriving DecidableEq, Repr

namespace Metrics

/-- Nothing was counted yet. -/
def fresh : Metrics := ⟨0, 0, 0, .zero, none, none⟩

/-- The average after one more attempt, given the average of those before. -/
def nextAverage (before : Nat) (average seconds : Binary64) : Binary64 :=
  if before = 0 then seconds
  else ((average.mul (.ofNat before)).add seconds).div (.ofNat (before + 1))

/-- Counts an attempt that took so many seconds. -/
def record (m : Metrics) (success : Bool) (seconds : Binary64) (now : Moment) : Metrics where
  total := m.total + 1
  succeeded := if success then m.succeeded + 1 else m.succeeded
  failed := if success then m.failed else m.failed + 1
  average := nextAverage m.total m.average seconds
  lastRequest := some now
  lastSuccess := if success then some now else m.lastSuccess

/-- A count as hundredths of a total. -/
def share (count total : Nat) : Binary64 :=
  if total = 0 then .zero else (Binary64.ratioOf count total).mul (.ofNat 100)

/-- The share of attempts that succeeded. -/
def successRate (m : Metrics) : Binary64 :=
  share m.succeeded m.total

/-- The share of attempts that failed. -/
def failureRate (m : Metrics) : Binary64 :=
  share m.failed m.total

/-- The metrics as a document. -/
def toJson (m : Metrics) : Json :=
  .object [
    ("total", .whole m.total),
    ("ok", .whole m.succeeded),
    ("failed", .whole m.failed),
    ("avg", .binary m.average),
    ("last_request", .ofOption Moment.toJson m.lastRequest),
    ("last_success", .ofOption Moment.toJson m.lastSuccess),
    ("success_rate", .binary m.successRate),
    ("failure_rate", .binary m.failureRate)]

end Metrics

end Cambio
