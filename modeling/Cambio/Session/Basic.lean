import Cambio.Conversion.Convert
import Cambio.Conversion.WarmUp
import Cambio.Keypad.Basic
import Cambio.Session.Property

/-!
# A session

A session has a keypad and a currency panel. Every change of the pair or of the amount is followed
by a conversion, if the settings say so. The number on the keypad can be sent to the panel. Each
operation gives notes of the properties that changed, in order, with the session as it stood then.

## Main definitions

- `Session` — the keypad, the converter and what lies outside
- `Session.isShowable` — the line that shows a conversion can be written
- `Session.Note` — that a property changed
- `Session.press` — a key of the keypad
- `Session.selectFrom`, `Session.selectTo`, `Session.enterAmount`, `Session.swap`,
  `Session.convert` — the currency panel
- `Session.send`, `Session.togglePanel` — from the keypad to the panel
-/

namespace Cambio

/-- The keypad, the converter and what lies outside. -/
structure Session where
  keypad : Keypad
  converter : Converter
  panelShown : Bool
  /-- A conversion is under way. -/
  isBusy : Bool
  outside : Outside
  deriving DecidableEq, Repr

namespace Session

/-- The settings of a session. -/
def settings (s : Session) : Settings :=
  s.converter.settings

/-- A session before its warm-up, unless the rate service cannot be asked with its settings. -/
def ofSettings (settings : Settings) (o : Outside) : Except Schema.Report Session :=
  settings.service.client.accept.map fun config =>
    { keypad := .fresh
      converter := .ofSettings settings (.ofConfig config) (some settings.rates.path)
        (Converter.baselineCache o.now)
      panelShown := false
      isBusy := false
      outside := o }

/-- A session after its warm-up, and how that ended. -/
def warmedUp (s : Session) : Converter.WarmUp × Session :=
  let (result, converter, outside) := s.converter.warmUp s.outside
  (result, { s with converter := converter, outside := outside })

/-! ## What is shown -/

/-- The line that shows a conversion. -/
def resultText (s : Session) : List Char :=
  let c := s.converter
  match c.error, c.fromCurrency, c.toCurrency with
  | some message, _, _ => "Error: ".toList ++ message.toList
  | none, some fromCurrency, some toCurrency =>
    c.amount.fixedPlaces 2 ++ ' ' :: fromCurrency.code.toList ++ " = ".toList ++
      c.converted.fixedPlaces s.settings.display.places ++ ' ' :: toCurrency.code.toList
  | none, _, _ => "Select currencies to convert".toList

/-- There is room for the numbers of the line that shows a conversion. -/
def isShowable (s : Session) : Bool :=
  let c := s.converter
  c.hasError || c.fromCurrency.isNone || c.toCurrency.isNone ||
    (c.amount.hasPlaces 2 && c.converted.hasPlaces s.settings.display.places)

/-- The line that shows when rates were last fetched. -/
def updatedText (s : Session) : List Char :=
  match s.converter.cache.lastUpdated with
  | some moment => "Last updated: ".toList ++ moment.minuteText
  | none => "Not updated yet".toList

/-! ## Notes -/

/-- That a property may have changed, and the session as it stood when that was told. -/
structure Note where
  property : Property
  seen : Session
  deriving DecidableEq, Repr

/-- A result was to be told for which there is no room: the line that shows it cannot be written. -/
def Note.isStuck (n : Note) : Bool :=
  n.property = .converted && !n.seen.isShowable

/-- Tells that properties changed. -/
def announce (s : Session) (ps : List Property) : List Note :=
  ps.map fun p => ⟨p, s⟩

/-- Notes whether a conversion is under way. -/
def setBusy (s : Session) (isBusy : Bool) : Session × List Note :=
  if s.isBusy = isBusy then (s, [])
  else
    let s := { s with isBusy := isBusy }
    (s, s.announce [.busy])

/-! ## The currency panel -/

/-- Converts the amount. -/
def convert (s : Session) : Session × List Note :=
  let (s, begun) := s.setBusy true
  let (converter, outside) := s.converter.convert s.outside
  let (s, done) := { s with converter := converter, outside := outside : Session }.setBusy false
  (s, begun ++ done ++ s.announce resultProperties)

/-- What follows a change. -/
def afterChange (s : Session) : Session × List Note :=
  if s.settings.display.isRealTime then s.convert else (s, [])

/-- Tells of changed properties and of what follows. -/
def changed (s : Session) (ps : List Property) : Session × List Note :=
  let (after, notes) := s.afterChange
  (after, s.announce ps ++ notes)

/-- Takes over a converter with another value of a property. When that is the same and nothing was
    wrong, nothing follows. -/
def change (s : Session) (converter : Converter) (isSame : Bool) (p : Property) :
    Session × List Note :=
  let s := { s with converter := converter }
  if isSame && !converter.hasError then (s, []) else s.changed [p]

/-- Shows why an entry is refused. -/
def reject (s : Session) (fault : Converter.Fault) : Session × List Note :=
  let s := { s with converter := s.converter.reportError fault.message }
  (s, s.announce resultProperties)

/-- Selects the currency to convert from. -/
def selectFrom (s : Session) (choice : Converter.Choice) : Session × List Note :=
  match s.converter.selectFrom choice with
  | .error f => s.reject f
  | .ok c => s.change c (c.fromCurrency = s.converter.fromCurrency) .fromCurrency

/-- Selects the currency to convert to. -/
def selectTo (s : Session) (choice : Converter.Choice) : Session × List Note :=
  match s.converter.selectTo choice with
  | .error f => s.reject f
  | .ok c => s.change c (c.toCurrency = s.converter.toCurrency) .toCurrency

/-- Enters an amount. -/
def enterAmount (s : Session) (e : Converter.Entry) : Session × List Note :=
  match s.converter.enterAmount e with
  | .error f => s.reject f
  | .ok c => s.change c (c.amount.sameValue s.converter.amount) .amount

/-- Exchanges both currencies. -/
def swap (s : Session) : Session × List Note :=
  { s with converter := s.converter.swap : Session }.changed [.fromCurrency, .toCurrency]

/-! ## The keypad -/

/-- Presses a key. -/
def press (s : Session) (key : Keypad.Key) : Session × List Note :=
  let s := { s with keypad := s.keypad.press key }
  (s, s.announce keypadProperties)

/-- Sends the number on the keypad to the panel; tells whether there was one. -/
def send (s : Session) : Bool × Session × List Note :=
  if s.keypad.hasError then (false, s, [])
  else
    match Keypad.parseNumber s.keypad.display with
    | .ok d => (true, s.enterAmount (.ofDecimal d))
    | .error _ => (false, s, [])

/-- Shows or hides the panel. When it is shown it may take over the number on the keypad. -/
def togglePanel (s : Session) : Session × List Note :=
  let s := { s with panelShown := !s.panelShown }
  let notes := s.announce [.panelShown]
  if s.panelShown && s.settings.display.synchronizes then
    let (_, s, more) := s.send
    (s, notes ++ more)
  else (s, notes)

end Session

end Cambio
