import Cambio.Binary64.Arithmetic
import Cambio.Disk
import Cambio.Json.Reader
import Cambio.Locator.Basic
import Cambio.Schema.Basic

/-!
# Breakdowns

Most failures are foreseen where they arise, and the program goes on. A breakdown is one that is
not: it ends the work that was under way.

## Main definitions

- `Breakdown` — why work ended, with its wording in `Breakdown.message`
-/

namespace Cambio

/-- A failure that is not foreseen. -/
inductive Breakdown where
  /-- The address of a request cannot be used. -/
  | address (message : String)
  /-- An answer to a request without a scheme cannot be taken. -/
  | schemeless (message : String)
  /-- A text that is sent has no bytes. -/
  | unwritable (u : Text.Unwritable)
  /-- A document goes beyond what can be read. -/
  | document (error : Json.Error)
  /-- A record that the program made itself is refused. -/
  | record (report : Schema.Report)
  /-- An operation on decimals has no result. -/
  | arithmetic (signal : Decimal.Signal)
  /-- A power of a number has no result. -/
  | power (excess : Binary64.Excess)
  /-- A date falls out of the calendar. -/
  | date
  /-- The disk refuses a path outright. -/
  | disk (trouble : Disk.Trouble)
  deriving DecidableEq, Repr

/-- The wording of a breakdown. -/
def Breakdown.message : Breakdown → String
  | .address message => message
  | .schemeless message => message
  | .unwritable u => u.message
  | .document error => error.message
  | .record report => report.headline
  | .arithmetic signal => signal.message
  | .power excess => excess.message
  | .date => "date value out of range"
  | .disk trouble => trouble.message

/-- The breakdown of a request whose locator has a flaw. -/
def Breakdown.ofFlaw : Locator.Flaw → Breakdown
  | .unwritable u => .unwritable u
  | flaw => .address flaw.message

end Cambio
