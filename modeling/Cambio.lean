import Cambio.Broadcast
import Cambio.Fault.Handler
import Cambio.Log.Setup
import Cambio.Main
import Cambio.Session.Status
import Cambio.Settings.Review
import Cambio.Proofs.Service.Retries
import Cambio.Proofs.Service.Outage
import Cambio.Proofs.Conversion.Convert
import Cambio.Proofs.Decimal.Value
import Cambio.Proofs.Session.Result
import Cambio.Proofs.Rates.Supply
import Cambio.Proofs.Decimal.Nearest
import Cambio.Proofs.Decimal.Numeral
import Cambio.Proofs.Decimal.Exact
import Cambio.Proofs.Keypad.Reading
import Cambio.Proofs.Keypad.Typing
import Cambio.Proofs.Keypad.Chain
import Cambio.Proofs.Keypad.Display
import Cambio.Proofs.Disk
import Cambio.Proofs.Json.Text
import Cambio.Proofs.Calendar.Iso
import Cambio.Proofs.Json.Document
import Cambio.Proofs.Rates.Document
import Cambio.Proofs.Rates.Store
import Cambio.Proofs.Keypad.Consistency
import Cambio.Proofs.Keypad.Pending
import Cambio.Proofs.Service.Outcome
import Cambio.Proofs.Conversion.Disruption
import Cambio.Proofs.Service.Accounting
import Cambio.Proofs.Conversion.Status
import Cambio.Proofs.Rates.Reading
import Cambio.Proofs.Rates.Loading
import Cambio.Proofs.Calendar.Offset
import Cambio.Proofs.Rates.Fetched
import Cambio.Proofs.Json.Numbers
import Cambio.Proofs.Rates.SavedAt
import Cambio.Proofs.Text.Upper
import Cambio.Proofs.Rates.Sound
import Cambio.Proofs.Conversion.History
import Cambio.Proofs.Conversion.Restart
import Cambio.Proofs.Conversion.Invariant
import Cambio.Proofs.Rates.Writable
import Cambio.Proofs.Conversion.Mirror
import Cambio.Proofs.Conversion.WarmUp
import Cambio.Proofs.Settings.Starting
import Cambio.Proofs.Console.Room
import Cambio.Proofs.Console.Demand
import Cambio.Proofs.Settings.Loading
import Cambio.Proofs.Settings.Keeping
import Cambio.Proofs.Conversion.Tiers
import Cambio.Proofs.Session.Notices
import Cambio.Proofs.Rates.Exact
import Cambio.Proofs.Conversion.Overlap
import Cambio.Proofs.Conversion.Cross
import Cambio.Proofs.Conversion.Selection
import Cambio.Proofs.Keypad.Failing
import Cambio.Proofs.Keypad.Entered
import Cambio.Proofs.Keypad.Accepted
import Cambio.Proofs.Keypad.Afresh
import Cambio.Proofs.Rates.Merging
import Cambio.Proofs.Settings.Codes
import Cambio.Proofs.Settings.Review
import Cambio.Proofs.Keypad.Shown
