import Cambio.Rates.Document
import Cambio.Service.Breaker
import Cambio.Service.Channel
import Cambio.Service.Config
import Cambio.Service.Fault
import Cambio.Service.Metrics

/-!
# Asking for rates

The client asks the rate service for the rates of a base currency. What comes back is judged once:
it is accepted, it is a fault for which a retry makes sense, or one for which it does not. Every
attempt that is judged is counted by the breaker and the metrics.

## Main definitions

- `Client` — the configuration, the breaker and the metrics
- `Client.Verdict`, `Client.verdict` — the judgement of an answer
- `Client.attempts` — attempts with growing pauses until one is final
- `Client.rates` — the rates of a base currency
-/

namespace Cambio

/-- Asks the rate service, within its configuration. -/
structure Client where
  config : Service.Config
  breaker : Breaker
  metrics : Metrics
  deriving DecidableEq, Repr

namespace Client

/-- A client that has asked nothing yet. -/
def ofConfig (config : Service.Config) : Client := ⟨config, .fresh, .fresh⟩

/-! ## Judging answers -/

/-- The judgement of an answer. -/
inductive Verdict where
  /-- The answer is an object with these members. -/
  | accepted (members : List (String × Json))
  /-- A fault that the next attempt may not have. -/
  | retryable (fault : Service.Fault)
  /-- A fault that ends the request. -/
  | final (fault : Service.Fault)
  /-- A failure that is not foreseen and not counted. -/
  | breakdown (b : Breakdown)
  /-- No answer will ever come. -/
  | pending

/-- The start of an answer that is kept for a fault. -/
def excerpt (body : List UInt8) : String :=
  String.ofList ((Text.decodeUtf8Lenient body).take 500)

/-- The judgement of the body of an answer that reports no failure. -/
def bodyVerdict (body : List UInt8) : Verdict :=
  match Json.readBytes .exact body with
  | .ok (.object members) => .accepted members
  | .ok _ => .final .noObject
  | .error e =>
    if e.isMalformed then .final (.unreadable e (excerpt body)) else .breakdown (.document e)

/-- The judgement of an answer. -/
def verdict : Channel.Answer → Verdict
  | .status status body =>
    if status = 429 then .final .asksTooOften
    else if 400 ≤ status ∧ status < 500 then .final (.refused status (excerpt body))
    else if 500 ≤ status ∧ status < 600 then .retryable (.failed status (excerpt body))
    else bodyVerdict body
  | .trouble .timeout message => .retryable (.timedOut message)
  | .trouble .transport message => .retryable (.unreachable message)
  | .trouble .protocol message => .final (.protocol message)
  | .trouble .address message => .breakdown (.address message)
  | .trouble .schemeless message => .breakdown (.schemeless message)
  | .silence => .pending

/-! ## Counting attempts -/

/-- Counts an attempt that failed. -/
def failed (c : Client) (started now : Moment) : Client :=
  { c with
    breaker := c.breaker.failed c.config.threshold now
    metrics := c.metrics.record false (now.secondsSince started) now }

/-- Counts an attempt that succeeded. -/
def succeeded (c : Client) (started now : Moment) : Client :=
  { c with
    breaker := c.breaker.succeeded
    metrics := c.metrics.record true (now.secondsSince started) now }

/-- Forgets the failures that the breaker has seen. -/
def resetBreaker (c : Client) : Client :=
  { c with breaker := .fresh }

/-- Forgets what was counted. -/
def resetMetrics (c : Client) : Client :=
  { c with metrics := .fresh }

/-! ## Asking -/

/-- The seconds to pause after an attempt; attempts are numbered from zero. -/
def retryDelay (config : Service.Config) (attempt : Nat) : Binary64 :=
  config.retryDelay.mul (config.backoff.pow attempt)

/-- The seconds to pause after an attempt of any number, or why there are none. -/
def retryDelayAt (config : Service.Config) (attempt : Int) : Except Breakdown Binary64 :=
  ((config.backoff.power attempt).map config.retryDelay.mul).mapError .power

/-- Sends a request until its answer is final or no retries are left. -/
def attempts (request : Channel.Request) (retries attempt : Nat) (c : Client) (ch : Channel) :
    Service.Result (List (String × Json)) × Client × Channel :=
  let started := ch.now
  let (answer, ch) := ch.exchange request
  match verdict answer with
  | .accepted members => (.done members, c.succeeded started ch.now, ch)
  | .final fault => (.fault fault, c.failed started ch.now, ch)
  | .breakdown b => (.breakdown b, c, ch)
  | .pending => (.pending, c, ch)
  | .retryable fault =>
    let c := c.failed started ch.now
    match retries with
    | 0 => (.fault fault, c, ch)
    | retries + 1 =>
      attempts request retries (attempt + 1) c (ch.pause (retryDelay c.config attempt))

/-- The request for the rates of a base currency to some targets. -/
def request (config : Service.Config) (base : String) (targets : List String) :
    Except Breakdown Channel.Request := do
  let target ←
    ((Locator.ofText config.address.toList).bind fun l => l.target.checked).mapError .ofFlaw
  let request : Channel.Request :=
    { target := target
      base := Text.upperString base
      targets := String.intercalate "," (targets.map Text.upperString)
      apiKey := config.apiKey }
  match request.query.findSome? fun (_, value) => Text.unwritable? value.toList with
  | some u => throw (.unwritable u)
  | none => return request

/-- Sends the request for the rates of a base currency to some targets, unless the breaker keeps it
    back. -/
def send (c : Client) (base : String) (targets : List String) (ch : Channel) :
    Service.Result (List (String × Json)) × Client × Channel :=
  match c.breaker.pass? c.config.cooldown ch.now with
  | none => (.fault (.keptBack c.breaker.lastFailure), c, ch)
  | some breaker =>
    let c := { c with breaker := breaker }
    match request c.config base targets with
    | .error b => (.breakdown b, c, ch)
    | .ok request => attempts request c.config.maxRetries 0 c ch

/-- The rates of a base currency to some targets. -/
def rates (c : Client) (base : String) (targets : List String) (ch : Channel) :
    Service.Result RateTable × Client × Channel :=
  match c.send base targets ch with
  | (.done members, c, ch) =>
    match RateAnswer.ofJson (.object members) with
    | .ok table => (.done table, c, ch)
    | .error report => (.fault (.noRates report), c, ch)
  | (.fault fault, c, ch) => (.fault fault, c, ch)
  | (.breakdown b, c, ch) => (.breakdown b, c, ch)
  | (.pending, c, ch) => (.pending, c, ch)

/-- Tries whether the service brings rates. -/
def isHealthy (c : Client) (ch : Channel) : Service.Result Bool × Client × Channel :=
  match c.rates "USD" ["EUR"] ch with
  | (.done _, c, ch) => (.done true, c, ch)
  | (.fault _, c, ch) => (.done false, c, ch)
  | (.breakdown b, c, ch) => (.breakdown b, c, ch)
  | (.pending, c, ch) => (.pending, c, ch)

end Client

end Cambio
