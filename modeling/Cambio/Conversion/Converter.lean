import Cambio.Conversion.Resolution
import Cambio.Rates.Cache
import Cambio.Service.Client
import Cambio.Settings.Basic

/-!
# The converter

The converter holds the selected pair of currencies, an amount and what it converts to. Currencies
come from the catalog of the settings. A conversion that fails leaves a message and a converted
amount of zero.

## Main definitions

- `Converter` — the selection, the result and the rates
- `Converter.ofSettings` — the converter at the start
- `Converter.selectFrom`, `Converter.selectTo`, `Converter.enterAmount` — changing the selection
- `Converter.resolve` — the rate from one currency to another
-/

namespace Cambio

/-- The selection, the result and the rates. -/
structure Converter where
  settings : Settings
  /-- The file in which rates are kept, if they are kept at all. -/
  store : Option Path
  client : Client
  cache : RateCache
  fromCurrency : Option Currency
  toCurrency : Option Currency
  amount : Decimal
  converted : Decimal
  /-- What went wrong; it may have no words. -/
  error : Option String
  deriving DecidableEq, Repr

namespace Converter

/-- Why a selection is refused. -/
inductive Fault where
  | unsupported (code : String)
  /-- The amount as it is shown in messages is no finite number. -/
  | invalidAmount (shown : List Char)
  deriving DecidableEq, Repr

/-- The wording of a fault. -/
def Fault.message : Fault → String
  | .unsupported code => s!"Unsupported currency: {code}"
  | .invalidAmount shown => "Invalid amount: " ++ String.ofList shown

/-- The kind of a fault. -/
def Fault.kind : Fault → Cambio.Fault.Kind
  | .unsupported _ => .unsupportedCurrency
  | .invalidAmount _ => .invalidAmount

/-! ## At the start -/

/-- The entry of a catalog for a code. -/
def offer? (catalog : List Currency) (code : String) : Option Currency :=
  catalog.find? (·.code = code)

/-- The currency selected first: the wanted one, or else the first of the catalog. -/
def initialFrom (catalog : List Currency) (code : String) : Option Currency :=
  (offer? catalog code).or catalog[0]?

/-- The currency converted to first: the wanted one, or else the second of the catalog. -/
def initialTo (catalog : List Currency) (code : String) : Option Currency :=
  (offer? catalog code).or catalog[1]?

/-- The rates that are known before any others. -/
def baselineCache (now : Moment) : RateCache :=
  RateCache.empty.seed RateTable.baselineBase RateTable.baseline now

/-- The converter at the start. -/
def ofSettings (settings : Settings) (client : Client) (store : Option Path) (cache : RateCache) :
    Converter :=
  let catalog := Currency.catalog settings.service.supported
  { settings, store, client, cache
    fromCurrency := initialFrom catalog settings.display.fromCode
    toCurrency := initialTo catalog settings.display.toCode
    amount := .one
    converted := .zero
    error := none }

/-! ## The selection -/

/-- The currencies that are offered. -/
def catalog (c : Converter) : List Currency :=
  Currency.catalog c.settings.service.supported

/-- Something went wrong. -/
def hasError (c : Converter) : Bool :=
  c.error.isSome

/-- What went wrong. -/
def errorMessage (c : Converter) : String :=
  c.error.getD ""

/-- The currency of a code, whatever its case and the blanks around it. -/
def currency (c : Converter) (code : String) : Except Fault Currency :=
  match offer? c.catalog (String.ofList (Text.upper (Text.trim code.toList))) with
  | some currency => .ok currency
  | none => .error (.unsupported code)

/-- A currency that is in the catalog just as it is. -/
def offered (c : Converter) (currency : Currency) : Except Fault Currency :=
  if offer? c.catalog currency.code = some currency then .ok currency
  else .error (.unsupported currency.code)

/-- What is selected: a currency by its code, a currency itself or none. -/
inductive Choice where
  | none
  | code (code : String)
  | currency (currency : Currency)
  deriving DecidableEq, Repr

/-- The currency of a choice. -/
def chosen (c : Converter) : Choice → Except Fault (Option Currency)
  | .none => .ok Option.none
  | .code code => (c.currency code).map some
  | .currency currency => (c.offered currency).map some

/-- Selects the currency to convert from. -/
def selectFrom (c : Converter) (choice : Choice) : Except Fault Converter :=
  (c.chosen choice).map fun currency => { c with fromCurrency := currency }

/-- Selects the currency to convert to. -/
def selectTo (c : Converter) (choice : Choice) : Except Fault Converter :=
  (c.chosen choice).map fun currency => { c with toCurrency := currency }

/-- Exchanges both currencies. -/
def swap (c : Converter) : Converter :=
  { c with fromCurrency := c.toCurrency, toCurrency := c.fromCurrency }

/-- An amount as it is entered: its text, and how it is shown in messages. -/
structure Entry where
  text : List Char
  shown : List Char
  deriving DecidableEq, Repr

/-- A value of a document as an amount. -/
def Entry.ofJson (v : Json) : Entry := ⟨v.asText, v.shown⟩

/-- A text as an amount. -/
def Entry.ofText (s : List Char) : Entry := ⟨s, Text.quoted s⟩

/-- A decimal as an amount. -/
def Entry.ofDecimal (d : Decimal) : Entry := ⟨d.scientific, (Json.decimal d).shown⟩

/-- The finite decimal of an amount. -/
def Entry.value (e : Entry) : Except Fault Decimal :=
  match Decimal.parse e.text with
  | .ok d => if d.isFinite then .ok d else .error (.invalidAmount e.shown)
  | .error _ => .error (.invalidAmount e.shown)

/-- Takes over an amount. -/
def enterAmount (c : Converter) (e : Entry) : Except Fault Converter :=
  e.value.map fun amount => { c with amount := amount }

/-! ## Errors -/

/-- Notes what went wrong. -/
def withError (c : Converter) (message : String) : Converter :=
  { c with error := some message }

/-- Notes what went wrong; nothing is converted then. -/
def reportError (c : Converter) (message : String) : Converter :=
  { c with error := some message, converted := .zero }

/-! ## Rates -/

/-- The rate from one currency to another. Looking it up is counted by the cache; when none is
    found, that is noted as an error. -/
def resolve (c : Converter) (fromCode toCode : String) :
    Except Breakdown Resolution × Converter :=
  let fromCode := Text.upperString fromCode
  let toCode := Text.upperString toCode
  if fromCode = toCode then (.ok (.identity fromCode), c)
  else
    let primary := c.settings.rates.primary
    let secondary := c.settings.rates.secondary
    let (book, cache) := c.cache.lookUpAll [fromCode, primary, secondary]
    let c := { c with cache := cache }
    match Resolution.ofBook book primary secondary fromCode toCode with
    | .ok r =>
      (.ok r, if r.isFallback then c.withError (Resolution.missingMessage fromCode toCode) else c)
    | .error b => (.error b, c)

end Converter

end Cambio
