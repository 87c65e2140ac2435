import Cambio.Json.Moment
import Cambio.Session.Basic

/-!
# How things stand

What can be seen of the parts of a session from outside, as documents.

## Main definitions

- `Channel.Request.toJson` — a request as it was sent
- `Keypad.toJson`, `Client.toJson`, `Converter.toJson`, `Session.toJson` — the parts of a session
-/

namespace Cambio

/-- A text as a value. -/
def Json.ofChars (s : List Char) : Json :=
  .text (String.ofList s)

/-- A request as it was sent. -/
def Channel.Request.toJson (r : Channel.Request) : Json :=
  .object [
    ("url", .ofChars r.target.text),
    ("query", .list (r.query.map fun (name, value) => .list [.text name, .text value])),
    ("agent", .text Channel.Request.agent),
    ("accept", .text Channel.Request.accept)]

/-- What happened on a channel so far, without the requests. -/
def Channel.members (ch : Channel) : List (String × Json) := [
  ("sleeps", .list (ch.pauses.map .binary)),
  ("now", ch.now.toJson)]

/-- How a keypad stands. -/
def Keypad.toJson (k : Keypad) : Json :=
  .object [
    ("input", .ofChars k.display),
    ("expr", .ofChars k.expression),
    ("error", .bool k.hasError),
    ("message", .text k.errorMessage),
    ("result", .decimal k.result),
    ("state", .text k.status.name)]

/-- How a client and its channel stand. -/
def Client.toJson (c : Client) (ch : Channel) : Json :=
  .object ([
    ("breaker", c.breaker.toJson),
    ("metrics", c.metrics.toJson),
    ("requests", .list (ch.sent.map Channel.Request.toJson))] ++ ch.members)

/-- The code of a currency that may be missing. -/
def Currency.codeJson : Option Currency → Json :=
  .ofOption fun c => .text c.code

/-- How a converter and its channel stand. -/
def Converter.toJson (c : Converter) (ch : Channel) : Json :=
  .object ([
    ("from", Currency.codeJson c.fromCurrency),
    ("to", Currency.codeJson c.toCurrency),
    ("amount", .decimal c.amount),
    ("converted", .decimal c.converted),
    ("error", .bool c.hasError),
    ("message", .text c.errorMessage),
    ("last_updated", .ofOption Moment.toJson c.cache.lastUpdated),
    ("requests", .list (ch.sent.map fun r => .list [.text r.base, .text r.targets]))] ++
    ch.members)

/-- How a session stands. -/
def Session.members (s : Session) : List (String × Json) :=
  let c := s.converter
  let k := s.keypad
  [("input", .ofChars k.display),
    ("expr", .ofChars k.expression),
    ("error", .bool k.hasError),
    ("message", .text k.errorMessage),
    ("panel", .bool s.panelShown),
    ("from", Currency.codeJson c.fromCurrency),
    ("to", Currency.codeJson c.toCurrency),
    ("amount", .decimal c.amount),
    ("converted", .decimal c.converted),
    ("fx_error", .bool c.hasError),
    ("busy", .bool s.isBusy),
    ("text", .ofChars s.resultText),
    ("updated", .ofChars s.updatedText)]

end Cambio
