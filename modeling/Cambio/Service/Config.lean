import Cambio.Schema.Field

/-!
# Configuration of the rate service

Where the rate service is found and how patiently it is asked.

## Main definitions

- `Service.Config` — the configuration
- `Service.Config.fields` — its fields in a record
- `Service.Config.ofJson` — the check of a whole record
- `Service.Config.accept` — the check of a configuration that was read with another address rule
-/

namespace Cambio.Service

open Schema

/-- Where the rate service is found and how patiently it is asked. -/
structure Config where
  address : String
  /-- The key that is sent along, unless it is empty. -/
  apiKey : String
  /-- Seconds to wait for an answer. -/
  timeout : Binary64
  maxRetries : Nat
  /-- Seconds to pause before the first retry. -/
  retryDelay : Binary64
  /-- How much longer each further pause is. -/
  backoff : Binary64
  /-- Failures in a row that open the breaker. -/
  threshold : Nat
  /-- Seconds for which the open breaker keeps requests back. -/
  cooldown : Nat
  deriving DecidableEq, Repr

namespace Config

/-- Takes the slashes off the end. -/
def withoutEndSlashes (s : String) : String :=
  String.ofList (Text.trimEndBy (· = '/') s.toList)

/-- An address starts with one of two schemes, in small letters. -/
def addressRule (s : String) : Except String String :=
  if s.startsWith "http://" || s.startsWith "https://" then .ok (withoutEndSlashes s)
  else .error "Base URL must start with http:// or https://"

/-- The fields of a configuration in a record; the address is checked separately. -/
def fields (ms : List (String × Json)) (address : Checked String) : Checked Config :=
  Config.mk <$> address
    <*> optional ms "api_key" "" text
    <*> optional ms "timeout" (.ofNat 10) (numberBetween 1 120)
    <*> optional ms "max_retries" 2 (wholeBetween 0 10)
    <*> optional ms "retry_delay" (.ofNat 1) (numberBetween 0 10)
    <*> optional ms "backoff_factor" (.ofNat 2) (numberBetween 1 5)
    <*> optional ms "circuit_breaker_threshold" 5 (wholeBetween 1 20)
    <*> optional ms "circuit_breaker_timeout" 60 (wholeBetween 1 600)

/-- A configuration as the members of a record. -/
def members (c : Config) : List (String × Json) := [
  ("base_url", .text c.address),
  ("api_key", .text c.apiKey),
  ("timeout", .binary c.timeout),
  ("max_retries", .whole c.maxRetries),
  ("retry_delay", .binary c.retryDelay),
  ("backoff_factor", .binary c.backoff),
  ("circuit_breaker_threshold", .whole c.threshold),
  ("circuit_breaker_timeout", .whole c.cooldown)]

/-- The title of the record. -/
def title : String := "CurrencyApiClientConfig"

/-- The configuration of a record. -/
def ofJson (v : Json) : Except Report Config :=
  let config := (Schema.members title v).andThen fun ms =>
    fields ms (required ms "base_url" (ruledText addressRule))
  config.toExcept title

/-- A configuration whose address starts as the service needs it. -/
def accept (c : Config) : Except Report Config :=
  match addressRule c.address with
  | .ok address => .ok { c with address := address }
  | .error message => .error ⟨title, [⟨["base_url"], .refused message⟩]⟩

end Config

end Cambio.Service
