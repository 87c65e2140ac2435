/-!
# Kinds of faults

A fault is a failure that the program foresees. Its kind says what went wrong, and a kind may
be a special case of a wider one. A kind has a usual category, from which the words for the user
are taken, and a usual severity.

## Main definitions

- `Fault.Category`, `Fault.Severity` — how a fault is counted and how loudly it is logged
- `Fault.Kind` — what went wrong
- `Fault.Kind.lineage` — a kind and the wider kinds it is a case of
-/

namespace Cambio.Fault

/-- The categories under which faults are counted. -/
inductive Category where
  | validation
  | calculation
  | divisionByZero
  | timeout
  | connection
  | externalService
  | rateUnavailable
  | persistence
  | unknown
  deriving DecidableEq, Repr

namespace Category

/-- All categories. -/
def all : List Category :=
  [.validation, .calculation, .divisionByZero, .timeout, .connection, .externalService,
    .rateUnavailable, .persistence, .unknown]

/-- The written name of a category. -/
def name : Category → String
  | .validation => "validation"
  | .calculation => "calculation"
  | .divisionByZero => "division_by_zero"
  | .timeout => "timeout"
  | .connection => "connection"
  | .externalService => "external_api"
  | .rateUnavailable => "rate_unavailable"
  | .persistence => "persistence"
  | .unknown => "unknown"

/-- What the user is told when a fault brings no words of its own. -/
def userMessage : Category → String
  | .validation => "Invalid input"
  | .calculation => "Calculation error"
  | .divisionByZero => "Division by zero"
  | .timeout => "Exchange rate service timed out"
  | .connection => "Exchange rate service unreachable"
  | .externalService => "Exchange rate service error"
  | .rateUnavailable => "Exchange rate not available"
  | .persistence => "Could not access saved exchange rates"
  | .unknown => "Unexpected error"

end Category

/-- How serious a fault is. -/
inductive Severity where
  | low
  | medium
  | high
  | critical
  deriving DecidableEq, Repr

namespace Severity

/-- All severities. -/
def all : List Severity := [.low, .medium, .high, .critical]

/-- The written name of a severity. -/
def name : Severity → String
  | .low => "low"
  | .medium => "medium"
  | .high => "high"
  | .critical => "critical"

end Severity

/-- What went wrong. -/
inductive Kind where
  /-- Any foreseen failure. -/
  | general
  /-- A calculation failed. -/
  | calculation
  /-- A text is no finite number, or a key is no digit. -/
  | invalidInput
  /-- A divisor is zero. -/
  | divisionByZero
  /-- A symbol is no operator. -/
  | unknownOperator
  /-- A currency is not in the catalog. -/
  | unsupportedCurrency
  /-- An amount is no finite number. -/
  | invalidAmount
  /-- The rate service failed. -/
  | service
  /-- The rate service refused a request as faulty. -/
  | refusedRequest
  /-- The rate service reported a failure of its own. -/
  | serverFailure
  /-- The rate service was asked too often. -/
  | rateLimit
  /-- The rate service did not answer in time. -/
  | timeout
  /-- The rate service could not be reached. -/
  | connection
  /-- An answer of the rate service holds no usable rates. -/
  | payload
  /-- The breaker keeps requests back. -/
  | breakerOpen
  /-- The rate file could not be read or written. -/
  | rateFile
  deriving DecidableEq, Repr

namespace Kind

/-- All kinds. -/
def all : List Kind :=
  [.general, .calculation, .invalidInput, .divisionByZero, .unknownOperator,
    .unsupportedCurrency, .invalidAmount, .service, .refusedRequest, .serverFailure, .rateLimit,
    .timeout, .connection, .payload, .breakerOpen, .rateFile]

/-- A kind and the wider kinds it is a case of, widest last. -/
def lineage : Kind → List Kind
  | .general => [.general]
  | .calculation => [.calculation, .general]
  | .invalidInput => [.invalidInput, .calculation, .general]
  | .divisionByZero => [.divisionByZero, .calculation, .general]
  | .unknownOperator => [.unknownOperator, .calculation, .general]
  | .unsupportedCurrency => [.unsupportedCurrency, .general]
  | .invalidAmount => [.invalidAmount, .general]
  | .service => [.service, .general]
  | .refusedRequest => [.refusedRequest, .service, .general]
  | .serverFailure => [.serverFailure, .service, .general]
  | .rateLimit => [.rateLimit, .service, .general]
  | .timeout => [.timeout, .service, .general]
  | .connection => [.connection, .service, .general]
  | .payload => [.payload, .service, .general]
  | .breakerOpen => [.breakerOpen, .service, .general]
  | .rateFile => [.rateFile, .general]

/-- A failure of the rate service, of whichever kind. -/
def isService (kind : Kind) : Bool :=
  kind.lineage.contains .service

/-- The kind whose way of being put on record a kind shares. -/
def form (kind : Kind) : Kind :=
  if kind.isService then .service
  else
    match kind with
    | .unsupportedCurrency => .unsupportedCurrency
    | .rateFile => .rateFile
    | _ => .general

/-- The usual category of a kind. -/
def category : Kind → Category
  | .general => .unknown
  | .calculation | .unknownOperator => .calculation
  | .invalidInput | .unsupportedCurrency | .invalidAmount => .validation
  | .divisionByZero => .divisionByZero
  | .timeout => .timeout
  | .connection => .connection
  | .rateFile => .persistence
  | _ => .externalService

/-- The usual severity of a kind. -/
def severity : Kind → Severity
  | .refusedRequest => .high
  | .breakerOpen | .rateFile => .low
  | _ => .medium

end Kind

end Cambio.Fault
