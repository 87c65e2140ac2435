import Cambio.Calendar.Moment
import Cambio.Fault.Kind
import Cambio.Log.Entry
import Cambio.Misfit

/-!
# Records of faults

When a fault occurs, everything that is known about it is put on record. A record can be written
to the log, where serious faults come with the way that led to them.

## Main definitions

- `Fault.Record` — what is known about a fault
- `Fault.nameFlaw?` — the names under which nothing can be said about a fault
- `Fault.Record.make` — the record of a fault of a kind
- `Fault.Record.toJson`, `Fault.Record.entry` — the record as a document and as a log entry
-/

namespace Cambio.Fault

/-- What is known about a fault. The words for the user, the mark and the context may be values of
    any sort. -/
structure Record where
  kind : Kind
  message : String
  category : Category
  severity : Severity
  userMessage : Json
  /-- The mark by which the record is found again; without one it gets a mark by chance. -/
  mark : Option Json
  context : Json
  time : Moment

/-! ## What is said about a fault -/

/-- What may be said about a fault beyond its kind and its message. A value that stands for nothing
    says nothing. -/
structure Details where
  category : Option Category
  severity : Option Severity
  userMessage : Json
  mark : Json
  context : Json

/-- Nothing more is said. -/
def Details.none : Details := ⟨Option.none, Option.none, .null, .null, .null⟩

/-- A name under which nothing can be said about a fault. -/
structure NameFlaw where
  /-- The kind whose form has no room for it. -/
  form : Kind
  name : String
  /-- What the name stands for has been said already. -/
  isTaken : Bool
  deriving DecidableEq, Repr

/-- The names of what every record of a form is made from. -/
def takenNames : Kind → List String
  | .unsupportedCurrency => ["self", "code"]
  | _ => ["self", "message"]

/-- The names of what may be said about faults of a form, beyond what may be said of all. -/
def ownNames : Kind → List String
  | .service => ["error_code", "details"]
  | .rateFile => ["path", "operation"]
  | _ => []

/-- The names of what may be said about all faults. -/
def commonNames : List String :=
  ["error_type", "severity", "user_message", "correlation_id", "context"]

/-- The first of some names that is no good for a fault of a kind. The form of the kind is tried
    before the general one. -/
def nameFlaw? (kind : Kind) (names : List String) : Option NameFlaw :=
  let form := kind.form
  let own := (names.find? fun name => (takenNames form).contains name).map fun name =>
    ⟨form, name, true⟩
  let rest := names.filter fun name => !(ownNames form).contains name
  let known := takenNames .general ++ commonNames
  let general := rest.findSome? fun name =>
    if (takenNames .general).contains name then some ⟨.general, name, true⟩
    else if known.contains name then none
    else some ⟨.general, name, false⟩
  if form = .general then general else own.or general

namespace Record

/-- The record of a fault of a kind. What is not said follows from the kind, and the words for the
    user from the category. -/
def make (kind : Kind) (message : String) (details : Details) (now : Moment) : Record :=
  let category := details.category.getD kind.category
  { kind, message, category
    severity := details.severity.getD kind.severity
    userMessage :=
      if details.userMessage.isVoid then .text category.userMessage else details.userMessage
    mark := if details.mark.isVoid then none else some details.mark
    context := if details.context.isVoid then .object [] else details.context
    time := now }

/-- The count of letters of a mark by chance. -/
def markLength : Nat := 8

/-- The time of a record in universal time. -/
def timeText (r : Record) : String :=
  String.ofList (r.time.isoText ++ "+00:00".toList)

/-- The record as a document, without its mark. -/
def toJson (r : Record) : List (String × Json) :=
  [("message", .text r.message), ("error_type", .text r.category.name),
    ("severity", .text r.severity.name), ("user_message", r.userMessage),
    ("context", r.context), ("timestamp", .text r.timeText)]

/-- The record with more of its context; of one name the newer value counts. A context that is no
    object cannot be added to. -/
def withContext (r : Record) (more : List (String × Json)) : Except Misfit Record :=
  match r.context with
  | .object context => .ok { r with context := .object (Entries.putAll context more) }
  | context => .error (.lacks context.sort "update")

/-- A serious fault is logged with the way that led to it. -/
def isSerious (r : Record) : Bool :=
  r.severity = .high || r.severity = .critical

/-- The level at which a fault is logged. -/
def level (r : Record) : Log.Level :=
  match r.severity with
  | .low => .info
  | .medium => .warning
  | .high | .critical => .error

/-- The record as a log entry. -/
def entry (r : Record) : Log.Entry where
  level := r.level
  event := "Application error"
  fields := r.toJson
  hasTrace := r.isSerious

end Record

end Cambio.Fault
