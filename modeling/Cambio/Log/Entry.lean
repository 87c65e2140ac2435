import Cambio.Binary64.Arithmetic
import Cambio.Json.Basic

/-!
# Log entries

A log entry is an event at a level with named values.

## Main definitions

- `Log.Entry` — the entries
- `Log.call` — the entry about a call of a service
-/

namespace Cambio.Log

/-- How important an entry is. -/
inductive Level where
  | debug
  | info
  | warning
  | error
  deriving DecidableEq, Repr

/-- The written name of a level. -/
def Level.name : Level → String
  | .debug => "debug"
  | .info => "info"
  | .warning => "warning"
  | .error => "error"

/-- An event at a level with named values. -/
structure Entry where
  level : Level
  event : String
  fields : List (String × Json)
  /-- The entry comes with the way that led to it. -/
  hasTrace : Bool := false

/-- A call succeeded if its status says so. -/
def isSuccess (status : Option Int) : Bool :=
  status.any fun n => 200 ≤ n && n < 300

/-- The places after the point to which durations are logged. -/
def durationPlaces : Nat := 4

/-- The layers that an entry about a call passes through, each with names of its own. -/
inductive Layer where
  | call
  | fields
  | entry
  | writer
  deriving DecidableEq, Repr

/-- All layers, outermost first. -/
def Layer.all : List Layer := [.call, .fields, .entry, .writer]

/-- The names that are taken in a layer. -/
def Layer.taken : Layer → List String
  | .call => ["self", "endpoint", "method", "status_code", "duration"]
  | .fields => ["duration_seconds", "success"]
  | .entry => ["event"]
  | .writer => ["method_name"]

/-- The first layer in which a name of a context is taken, and the first such name. -/
def clash? (context : List (String × Json)) : Option (Layer × String) :=
  Layer.all.findSome? fun layer =>
    ((context.map Prod.fst).find? fun name => layer.taken.contains name).map fun name =>
      (layer, name)

/-- The entry about a call of a service that took so many seconds; without an answer there is no
    status. No name of the context may be taken already. -/
def call (endpoint method : String) (status : Option Int) (seconds : Binary64)
    (context : List (String × Json)) : Except (Layer × String) Entry :=
  match clash? context with
  | some clash => .error clash
  | none => .ok {
      level := .info
      event := "API call"
      fields :=
        [("endpoint", .text endpoint), ("method", .text method),
          ("status_code", (status.map Json.whole).getD .null),
          ("duration_seconds", .binary (seconds.roundPlaces durationPlaces)),
          ("success", .bool (isSuccess status))] ++ context }

end Cambio.Log
