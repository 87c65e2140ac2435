import Cambio.Breakdown
import Cambio.Calendar.Moment
import Cambio.Fault.Kind

/-!
# Faults of the rate service

Whatever keeps the rate service from bringing rates is a fault of the service, and the program
goes on with the rates that it has. Only a breakdown ends the work that was under way.

## Main definitions

- `Service.Fault` — why a request brought no rates
- `Service.Result` — what a request brought
-/

namespace Cambio

namespace Service

/-- Why a request brought no rates. -/
inductive Fault where
  /-- The request was refused, with the start of the answer. -/
  | refused (status : Nat) (details : String)
  /-- The service failed, with the start of its answer. -/
  | failed (status : Nat) (details : String)
  | asksTooOften
  | timedOut (message : String)
  | unreachable (message : String)
  /-- The exchange broke a rule of the protocol. -/
  | protocol (message : String)
  /-- The answer is no JSON, with its start. -/
  | unreadable (error : Json.Error) (details : String)
  /-- The answer is no object. -/
  | noObject
  /-- The answer holds no usable table of rates. -/
  | noRates (report : Schema.Report)
  /-- The breaker kept the request back. -/
  | keptBack (lastFailure : Option Moment)
  deriving DecidableEq, Repr

namespace Fault

/-- The kind of a fault. -/
def kind : Fault → Cambio.Fault.Kind
  | .refused .. => .refusedRequest
  | .failed .. => .serverFailure
  | .asksTooOften => .rateLimit
  | .timedOut _ => .timeout
  | .unreachable _ => .connection
  | .protocol _ => .service
  | .unreadable .. | .noObject | .noRates _ => .payload
  | .keptBack _ => .breakerOpen

/-- The wording for the time of a failure. -/
def momentText : Option Moment → String
  | some moment => String.ofList moment.spacedText
  | none => "None"

/-- The wording of a fault. -/
def message : Fault → String
  | .refused status _ => s!"Client error: {status}"
  | .failed status _ => s!"Server error: {status}"
  | .asksTooOften => "Rate limit exceeded"
  | .timedOut message => s!"Request timeout: {message}"
  | .unreachable message => s!"Network error: {message}"
  | .protocol message => s!"HTTP error: {message}"
  | .unreadable error _ => s!"Invalid JSON response: {error.message}"
  | .noObject => "Response is not a JSON object"
  | .noRates _ => "Invalid API response format"
  | .keptBack lastFailure => s!"Circuit breaker is open. Last failure: {momentText lastFailure}"

/-- The status that came with a fault. -/
def status? : Fault → Option Nat
  | .refused status _ | .failed status _ => some status
  | .asksTooOften => some 429
  | _ => none

/-- The start of the answer that came with a fault. -/
def details? : Fault → Option String
  | .refused _ details | .failed _ details | .unreadable _ details => some details
  | _ => none

end Fault

/-- What a request brought. -/
inductive Result (α : Type) where
  | done (value : α)
  | fault (f : Fault)
  | breakdown (b : Breakdown)
  /-- No answer will ever come. -/
  | pending
  deriving DecidableEq, Repr

end Service

end Cambio
