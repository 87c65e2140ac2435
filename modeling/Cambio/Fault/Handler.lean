import Cambio.Fault.Record

/-!
# Handling faults

All faults come to one place, where they are counted by category and logged. A failure that is not
foreseen becomes a serious fault of the general kind. Once it is installed, the handler also takes
what background work leaves behind.

## Main definitions

- `Fault.Incident` — a fault on record or another failure
- `Fault.Handler` — the counts of a handler
- `Fault.Handler.handle`, `Fault.Handler.background` — what it does with incidents
-/

namespace Cambio.Fault

/-- A fault on record or another failure. -/
inductive Incident where
  | fault (r : Record)
  /-- A failure that is not foreseen, with its sort and its words. -/
  | failure (sort message : String)

/-- Counts faults by the names of their categories. -/
structure Handler where
  counts : Entries Nat
  isInstalled : Bool
  deriving DecidableEq, Repr

namespace Handler

/-- A handler that has counted nothing. -/
def fresh : Handler := ⟨[], false⟩

/-- The names that no part of the context of an incident may have. -/
def takenNames : List String := ["self", "exc"]

/-- The first name in a context that is taken already. -/
def takenName? (context : List (String × Json)) : Option String :=
  (context.map Prod.fst).find? fun name => takenNames.contains name

/-- The record of an incident with its context. -/
def record (incident : Incident) (context : List (String × Json)) (now : Moment) :
    Except Misfit Record :=
  match incident with
  | .fault r => r.withContext context
  | .failure sort message =>
    .ok (.make .general (if message = "" then sort else message)
      { Details.none with severity := some .high, context := .object context } now)

/-- Counts and logs an incident. -/
def handle (h : Handler) (incident : Incident) (context : List (String × Json)) (now : Moment) :
    Except Misfit (Record × Handler × Log.Entry) :=
  (record incident context now).map fun r =>
    let count := (Entries.get? r.category.name h.counts).getD 0
    (r, { h with counts := Entries.put r.category.name (count + 1) h.counts }, r.entry)

/-- Installs the handler for background work. -/
def install (h : Handler) : Handler × Log.Entry :=
  ({ h with isInstalled := true },
    { level := .debug, event := "Event loop exception handler installed", fields := [] })

/-- What background work leaves behind: an incident or just words. -/
inductive Remains where
  | incident (i : Incident)
  | words (message : String)

/-- Takes what background work leaves behind, if the handler is installed. An incident that cannot
    be handled is passed over. -/
def background (h : Handler) (remains : Remains) (now : Moment) :
    Handler × List Log.Entry :=
  if !h.isInstalled then (h, [])
  else
    match remains with
    | .incident i =>
      match h.handle i [("source", .text "event_loop")] now with
      | .ok (_, h, entry) => (h, [entry])
      | .error _ => (h, [])
    | .words message =>
      let fields := [("message", Json.text message)]
      (h, [{ level := .error, event := "Unhandled event loop error", fields }])

end Handler

end Cambio.Fault
