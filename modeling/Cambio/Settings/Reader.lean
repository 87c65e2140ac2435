import Cambio.Settings.Basic
import Cambio.Settings.Directions

/-!
# Reading settings

Settings are read from a record of sections; what is left out keeps its default. All that is wrong
is reported together. Only a value that no list can be made of ends the reading at once.

## Main definitions

- `Settings.ofMembers` — the settings of the members of a record
- `Settings.Failure` — why a record holds no settings
-/

namespace Cambio.Settings

open Schema

/-- Why a record holds no settings. -/
inductive Failure where
  | report (report : Report)
  | misfit (misfit : Misfit)
  /-- A member has a reserved name. -/
  | clash (clash : NameClash)
  deriving DecidableEq, Repr

/-- A text under a rule. -/
def ruled {α : Type} (rule : String → Except Rule.Refusal α) (v : Json) : Checked α :=
  (text v).andThen fun s => .ofRule ((rule s).mapError Rule.Refusal.message)

/-- A field that is a list of codes. -/
def codesField (ms : List (String × Json)) (name : String) (default : List String) :
    Except Misfit (Checked (List String)) :=
  match Entries.get? name ms with
  | none => .ok (.valid default)
  | some v =>
    match Rule.codes v with
    | .accepted codes => .ok (.valid codes)
    | .refused r => .ok (Checked.under name (.fault (.refused r.message)))
    | .misfit m => .error m

/-- A field under a rule, with a default. -/
def ruledField {α : Type} (ms : List (String × Json)) (name : String) (default : α)
    (rule : String → Except Rule.Refusal α) : Checked α :=
  optional ms name default (ruled rule)

/-- A section by its name; a section that is left out has all its defaults. -/
def sectionField {α : Type} (ms : List (String × Json)) (name title : String) (default : α)
    (check : List (String × Json) → Except Misfit (Checked α)) :
    Except Misfit (Checked α) :=
  match Entries.get? name ms with
  | none => .ok (.valid default)
  | some v =>
    match members title v with
    | .valid fields => (check fields).map (Checked.under name)
    | .invalid issues => .ok (Checked.under name (.invalid issues))

/-- The fields of the rate service. -/
def Service.fields (ms : List (String × Json)) : Except Misfit (Checked Service) := do
  let supported ← codesField ms "supported_currencies" Service.default.supported
  let address :=
    ruledField ms "base_url" Service.default.client.address (Rule.address Rule.webSchemes)
  return Service.mk <$> Cambio.Service.Config.fields ms address <*> supported

/-- The fields of the cache and the rate file. -/
def Rates.fields (ms : List (String × Json)) : Except Misfit (Checked Rates) := do
  let default := Rates.default
  let majors ← codesField ms "major_currencies" default.majors
  return Rates.mk
    <$> optional ms "expiration_minutes" default.expirationMinutes (wholeBetween 1 10080)
    <*> ruledField ms "rates_file_path" default.filePath Rule.filePath
    <*> optional ms "enable_persistent_storage" default.isPersistent yesNo
    <*> optional ms "load_rates_at_startup" default.loadsAtStart yesNo
    <*> majors
    <*> optional ms "api_call_delay_ms" default.pauseMillis (wholeBetween 0 10000)
    <*> optional ms "min_rate_entries" default.minEntries (wholeBetween 1 100)
    <*> ruledField ms "primary_reference_currency" default.primary Rule.code
    <*> ruledField ms "secondary_reference_currency" default.secondary Rule.code

/-- The fields of what is shown. -/
def Display.fields (ms : List (String × Json)) : Checked Display :=
  let default := Display.default
  Display.mk
    <$> ruledField ms "default_from_currency" default.fromCode Rule.code
    <*> ruledField ms "default_to_currency" default.toCode Rule.code
    <*> optional ms "decimal_places" default.places (wholeBetween 0 10)
    <*> optional ms "real_time_conversion" default.isRealTime yesNo
    <*> optional ms "amount_synchronization" default.synchronizes yesNo

/-- The fields of the log. -/
def Logging.fields (ms : List (String × Json)) : Checked Logging :=
  let default := Logging.default
  Logging.mk
    <$> ruledField ms "level" default.level Rule.level
    <*> ruledField ms "format" default.layout Rule.layout
    <*> optional ms "file_enabled" default.toFile yesNo
    <*> ruledField ms "file_path" default.filePath Rule.filePath
    <*> optional ms "max_file_size" default.maxBytes (wholeBetween 1048576 104857600)
    <*> optional ms "backup_count" default.backups (wholeBetween 1 20)

/-- The fields of the program as a whole. -/
def Application.fields (ms : List (String × Json)) : Checked Application :=
  let default := Application.default
  Application.mk
    <$> optional ms "name" default.name text
    <*> optional ms "version" default.version text
    <*> ruledField ms "environment" default.environment Rule.environment
    <*> optional ms "debug" default.debug yesNo

/-- The sections. -/
def fields (ms : List (String × Json)) : Except Misfit (Checked Settings) := do
  let service ← sectionField ms "currency_api" "CurrencyApiConfig" .default Service.fields
  let rates ← sectionField ms "rate_cache" "RateCacheConfig" .default Rates.fields
  let display ← sectionField ms "display" "DisplayConfig" .default (.ok <| Display.fields ·)
  let logging ← sectionField ms "logging" "LoggingConfig" .default (.ok <| Logging.fields ·)
  let application ←
    sectionField ms "application" "ApplicationConfig" .default (.ok <| Application.fields ·)
  return Settings.mk <$> service <*> rates <*> display <*> logging <*> application

/-- The currencies over which rates are derived are two. -/
def withTwoReferences (s : Settings) : Checked Settings :=
  if s.rates.primary = s.rates.secondary then
    .fault (.refused Rule.Refusal.referencesEqual.message)
  else .valid s

/-- The title of the record. -/
def title : String := "Settings"

/-- The names of the sections. -/
def sectionNames : List String :=
  ["currency_api", "rate_cache", "display", "logging", "application"]

/-- The member of a section: the first whose name is found under that of the section. -/
def member? (g : Directions) (ms : List (String × Json)) (name : String) : Option Json :=
  (ms.find? fun entry => g.key entry.1 = name).map Prod.snd

/-- The sections among the members of a record, under their own names. -/
def sectionsOf (g : Directions) (ms : List (String × Json)) : List (String × Json) :=
  sectionNames.filterMap fun name => (member? g ms name).map fun v => (name, v)

/-- The settings of sections under their own names. -/
def ofSections (ms : List (String × Json)) : Except Failure Settings :=
  match fields ms with
  | .error m => .error (.misfit m)
  | .ok settings => ((settings.andThen withTwoReferences).toExcept title).mapError .report

/-- The settings of the members of a record. The case of the names of sections does not count. -/
def ofMembers (ms : List (String × Json)) : Except Failure Settings :=
  ofSections (sectionsOf .usual ms)

end Cambio.Settings
