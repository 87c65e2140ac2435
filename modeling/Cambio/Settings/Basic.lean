import Cambio.Settings.Rules

/-!
# Settings

Everything about the program that its user can choose, in five sections.

## Main definitions

- `Settings` — the settings and their sections
- `Settings.default` — what holds without any choice
- `Settings.toJson` — the settings as a document
-/

namespace Cambio

/-- The rate service and the currencies that are offered. -/
structure Settings.Service where
  client : Service.Config
  supported : List String
  deriving DecidableEq, Repr

/-- The cache of rates and the rate file. -/
structure Settings.Rates where
  /-- Minutes after which a table is stale. -/
  expirationMinutes : Nat
  filePath : String
  /-- Rates are written to the file and read from it. -/
  isPersistent : Bool
  /-- The file is read when the program starts. -/
  loadsAtStart : Bool
  /-- The bases whose rates are fetched when the program starts. -/
  majors : List String
  /-- Milliseconds between two fetches at the start. -/
  pauseMillis : Nat
  /-- A table with fewer rates is filled up from the cache. -/
  minEntries : Nat
  /-- The first currency over which rates are derived. -/
  primary : String
  /-- The second currency over which rates are derived. -/
  secondary : String
  deriving DecidableEq, Repr

/-- What is shown at first, and how. -/
structure Settings.Display where
  fromCode : String
  toCode : String
  /-- Places after the point of a converted amount. -/
  places : Nat
  /-- Every change is followed by a conversion. -/
  isRealTime : Bool
  /-- Opening the currency panel takes over the number of the keypad. -/
  synchronizes : Bool
  deriving DecidableEq, Repr

/-- How much is logged and where. -/
structure Settings.Logging where
  level : Rule.Level
  layout : Rule.Layout
  toFile : Bool
  filePath : String
  /-- Bytes after which a new file is begun. -/
  maxBytes : Nat
  /-- Older files that are kept. -/
  backups : Nat
  deriving DecidableEq, Repr

/-- The program as a whole. -/
structure Settings.Application where
  name : String
  version : String
  environment : Rule.Environment
  debug : Bool
  deriving DecidableEq, Repr

/-- All settings. -/
structure Settings where
  service : Settings.Service
  rates : Settings.Rates
  display : Settings.Display
  logging : Settings.Logging
  application : Settings.Application
  deriving DecidableEq, Repr

namespace Settings

/-! ## Defaults -/

/-- The rate service without any choice. -/
def Service.default : Service where
  client :=
    { address := "https://api.freecurrencyapi.com/v1/latest"
      apiKey := ""
      timeout := .ofNat 10
      maxRetries := 2
      retryDelay := .ofNat 1
      backoff := .ofNat 2
      threshold := 5
      cooldown := 60 }
  supported := ["USD", "EUR", "GBP", "JPY", "CAD", "AUD", "CHF", "CNY", "INR", "RUB", "IDR"]

/-- The cache and the rate file without any choice. -/
def Rates.default : Rates where
  expirationMinutes := 60
  filePath := "exchange_rates.json"
  isPersistent := true
  loadsAtStart := true
  majors := ["USD", "EUR", "GBP", "JPY", "CAD", "AUD"]
  pauseMillis := 100
  minEntries := 5
  primary := "USD"
  secondary := "EUR"

/-- What is shown without any choice. -/
def Display.default : Display where
  fromCode := "USD"
  toCode := "EUR"
  places := 5
  isRealTime := true
  synchronizes := true

/-- The log without any choice. -/
def Logging.default : Logging where
  level := .info
  layout := .text
  toFile := false
  filePath := "logs/calcfx.log"
  maxBytes := 10485760
  backups := 5

/-- The program without any choice. -/
def Application.default : Application where
  name := "Stylish Calculator"
  version := "1.0.0"
  environment := .production
  debug := false

/-- What holds without any choice. -/
def default : Settings := ⟨.default, .default, .default, .default, .default⟩

instance : Inhabited Settings := ⟨default⟩

/-! ## What follows from the settings -/

/-- Seconds between two fetches at the start. -/
def Rates.pause (r : Rates) : Binary64 :=
  .ratioOf r.pauseMillis 1000

/-- The currencies over which rates are derived, in the order in which they are tried. -/
def Rates.references (r : Rates) : List String :=
  [r.primary, r.secondary]

/-- The age in microseconds after which a table is stale. -/
def Rates.maxAge (r : Rates) : Int :=
  r.expirationMinutes * 60000000

/-- The path of the rate file. -/
def Rates.path (r : Rates) : Path :=
  .ofText r.filePath

/-! ## The settings as a document -/

/-- A list of codes as a document. -/
def codesJson (codes : List String) : Json :=
  .list (codes.map .text)

/-- The rate service as a section of a document. -/
def Service.toJson (s : Service) : Json :=
  .object (s.client.members ++ [("supported_currencies", codesJson s.supported)])

/-- The cache and the rate file as a section of a document. -/
def Rates.toJson (r : Rates) : Json :=
  .object [
    ("expiration_minutes", .whole r.expirationMinutes),
    ("rates_file_path", .text r.filePath),
    ("enable_persistent_storage", .bool r.isPersistent),
    ("load_rates_at_startup", .bool r.loadsAtStart),
    ("major_currencies", codesJson r.majors),
    ("api_call_delay_ms", .whole r.pauseMillis),
    ("min_rate_entries", .whole r.minEntries),
    ("primary_reference_currency", .text r.primary),
    ("secondary_reference_currency", .text r.secondary)]

/-- What is shown as a section of a document. -/
def Display.toJson (d : Display) : Json :=
  .object [
    ("default_from_currency", .text d.fromCode),
    ("default_to_currency", .text d.toCode),
    ("decimal_places", .whole d.places),
    ("real_time_conversion", .bool d.isRealTime),
    ("amount_synchronization", .bool d.synchronizes)]

/-- The log as a section of a document. -/
def Logging.toJson (l : Logging) : Json :=
  .object [
    ("level", .text l.level.name),
    ("format", .text l.layout.name),
    ("file_enabled", .bool l.toFile),
    ("file_path", .text l.filePath),
    ("max_file_size", .whole l.maxBytes),
    ("backup_count", .whole l.backups)]

/-- The program as a section of a document. -/
def Application.toJson (a : Application) : Json :=
  .object [
    ("name", .text a.name),
    ("version", .text a.version),
    ("environment", .text a.environment.name),
    ("debug", .bool a.debug)]

/-- The settings as a document. -/
def toJson (s : Settings) : Json :=
  .object [
    ("currency_api", s.service.toJson),
    ("rate_cache", s.rates.toJson),
    ("display", s.display.toJson),
    ("logging", s.logging.toJson),
    ("application", s.application.toJson)]

/-- What follows from the settings without a review, as a document. -/
def derivedMembers (s : Settings) : List (String × Json) := [
  ("api_call_delay", .binary s.rates.pause),
  ("reference_currencies", codesJson s.rates.references),
  ("supported_currencies", codesJson s.service.supported),
  ("is_development", .bool (s.application.environment = .development)),
  ("is_production", .bool (s.application.environment = .production))]

/-- What the program needs to know at its start, as a document. -/
def startMembers (s : Settings) : List (String × Json) := [
  ("api_key", .text s.service.client.apiKey),
  ("log_level", .text s.logging.level.name),
  ("rates_file", .text s.rates.path.text)]

end Settings

end Cambio
