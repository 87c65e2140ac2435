import Cambio.Binary64.Arithmetic
import Cambio.Calendar.Moment
import Cambio.Locator.Basic

/-!
# The channel to the rate service

Requests go out over a channel, and replies come back after some time. A channel knows the replies
to come: each request takes the next one, and the last of them comes again and again. With no
replies at all the service is unreachable. The channel keeps the clock, and what was sent and how
long was paused in between.

## Main definitions

- `Channel` — the clock, the replies to come and what happened so far
- `Channel.Reply` — what comes back for a request
- `Channel.exchange` — sends a request and takes the reply
- `Channel.pause` — lets time pass
-/

namespace Cambio

namespace Channel

/-- A request for the rates of a base currency. -/
structure Request where
  target : Locator
  base : String
  /-- The codes of the wanted currencies, separated by commas. -/
  targets : String
  /-- The key that is sent along, unless it is empty. -/
  apiKey : String
  deriving DecidableEq, Repr

namespace Request

/-- The names and values of the query of a request. -/
def query (r : Request) : List (String × String) :=
  [("base_currency", r.base), ("currencies", r.targets)] ++
    if r.apiKey = "" then [] else [("apikey", r.apiKey)]

/-- The whole text of where a request goes. -/
def text (r : Request) : List Char :=
  r.target.text ++ '?' :: Locator.formText r.query

/-- How the program names itself to the service. -/
def agent : String := "calcfx/1.0.0"

/-- The form of answer that a request asks for. -/
def accept : String := "application/json"

end Request

/-- Why no answer comes. -/
inductive Trouble where
  | timeout
  /-- The service cannot be reached. -/
  | transport
  /-- The exchange breaks a rule of the protocol. -/
  | protocol
  /-- The address of the request cannot be used. -/
  | address
  /-- The request has no scheme, so that its answer cannot be taken. -/
  | schemeless
  deriving DecidableEq, Repr

/-- What comes back for a request. -/
inductive Answer where
  | status (status : Nat) (body : List UInt8)
  | trouble (trouble : Trouble) (message : String)
  /-- Nothing ever comes back. -/
  | silence
  deriving DecidableEq, Repr

/-- An answer as it is taken for a request. One that comes back for a request without a scheme is
    trouble, since its origin cannot be told. -/
def Answer.to (request : Request) : Answer → Answer
  | .status number body =>
    if request.target.scheme = [] then
      .trouble .schemeless s!"unknown url type: {String.ofList (Text.quoted request.text)}"
    else .status number body
  | answer => answer

/-- What comes back for a request, and after how many seconds. -/
structure Reply where
  latency : Binary64
  answer : Answer
  deriving DecidableEq, Repr

/-- The reply when there are no replies to come. -/
def Reply.offline : Reply := ⟨.zero, .trouble .transport "offline"⟩

end Channel

/-- The clock, the replies to come and what happened so far. -/
structure Channel where
  now : Moment
  replies : List Channel.Reply
  /-- The requests that were sent, in order. -/
  sent : List Channel.Request
  /-- The seconds of the pauses that were made, in order. -/
  pauses : List Binary64
  deriving DecidableEq, Repr

namespace Channel

/-- Takes the next of the replies; the last one stays. -/
def nextReply : List Reply → Reply × List Reply
  | [] => (.offline, [])
  | [reply] => (reply, [reply])
  | reply :: rest => (reply, rest)

/-- Lets time pass. -/
def wait (ch : Channel) (seconds : Binary64) : Channel :=
  { ch with now := ch.now.afterSeconds seconds }

/-- Lets time pass between two requests. -/
def pause (ch : Channel) (seconds : Binary64) : Channel :=
  { ch.wait seconds with pauses := ch.pauses ++ [seconds] }

/-- Sends a request and takes the reply. -/
def exchange (ch : Channel) (request : Request) : Answer × Channel :=
  let (reply, replies) := nextReply ch.replies
  let ch := { ch with replies := replies, sent := ch.sent ++ [request] }
  (reply.answer.to request, ch.wait reply.latency)

end Channel

end Cambio
