import Cambio.Settings.Basic

/-!
# Reviewing settings

Settings that are good one by one may not go together. The review warns about it; the settings
hold all the same. The first rule that is broken outright ends the review.

## Main definitions

- `Settings.Warning`, `Settings.Breach` — what the review finds
- `Settings.currencyRules`, `Settings.environmentRules` — the rules
- `Settings.warnings` — the review of settings
-/

namespace Cambio.Settings

/-- A rule that is broken outright. -/
inductive Breach where
  | defaultUnsupported (code : String)
  | defaultsEqual
  | debugInProduction
  deriving DecidableEq, Repr

/-- The wording of a breach. -/
def Breach.message : Breach → String
  | .defaultUnsupported code => s!"Default currency {code} is not supported"
  | .defaultsEqual => "Default from and to currencies must be different"
  | .debugInProduction => "Debug mode should not be enabled in production environment"

/-- What the review finds. -/
inductive Warning where
  | majorsUnsupported (codes : List String)
  | referencesUnsupported (codes : List String)
  | debugLevelInProduction
  | quietInDevelopment (level : String)
  | breach (b : Breach)
  deriving DecidableEq, Repr

/-- The wording of a warning. -/
def Warning.message : Warning → String
  | .majorsUnsupported codes =>
    "Major currencies not in supported list: " ++ String.intercalate ", " codes
  | .referencesUnsupported codes =>
    "Reference currencies not in supported list: " ++ String.intercalate ", " codes
  | .debugLevelInProduction => "DEBUG log level in production may impact performance"
  | .quietInDevelopment level =>
    s!"Log level '{level}' may hide important development information. " ++
      "Consider using INFO or DEBUG."
  | .breach b => s!"Business rule validation warning: {b.message}"

/-- What a group of rules found: warnings, and a breach if one ended it. -/
structure Findings where
  warnings : List Warning
  breach : Option Breach
  deriving DecidableEq, Repr

/-- A warning about the codes of a list that are not supported. -/
def unsupported (supported codes : List String) (warning : List String → Warning) :
    List Warning :=
  match codes.filter (· ∉ supported) with
  | [] => []
  | unknown => [warning unknown]

/-- The default pair has two supported currencies. -/
def pairBreach (supported : List String) (fromCode toCode : String) : Option Breach :=
  if fromCode ∉ supported then some (.defaultUnsupported fromCode)
  else if toCode ∉ supported then some (.defaultUnsupported toCode)
  else if fromCode = toCode then some .defaultsEqual
  else none

/-- The rules about currencies. -/
def currencyRules (supported majors references : List String) (fromCode toCode : String) :
    Findings where
  warnings :=
    unsupported supported majors .majorsUnsupported ++
      unsupported supported references .referencesUnsupported
  breach := pairBreach supported fromCode toCode

/-- The rules about the environment. -/
def environmentRules (environment : String) (debug : Bool) (level : String) : Findings :=
  let loud := Text.upperString level
  if environment = Rule.Environment.production.name then
    if debug then ⟨[], some .debugInProduction⟩
    else ⟨if loud = Rule.Level.debug.name then [.debugLevelInProduction] else [], none⟩
  else if environment = Rule.Environment.development.name then
    ⟨if loud = Rule.Level.error.name ∨ loud = Rule.Level.critical.name then
      [.quietInDevelopment level] else [], none⟩
  else ⟨[], none⟩

/-- The findings of two groups of rules, of which the second is tried only if the first brought
    no breach. -/
def Findings.andThen (first second : Findings) : Findings :=
  match first.breach with
  | some _ => first
  | none => ⟨first.warnings ++ second.warnings, second.breach⟩

/-- All findings about settings. -/
def findings (s : Settings) : Findings :=
  (currencyRules s.service.supported s.rates.majors s.rates.references s.display.fromCode
    s.display.toCode).andThen
    (environmentRules s.application.environment.name s.application.debug s.logging.level.name)

/-- The warnings of the review; a breach is the last of them. -/
def warnings (s : Settings) : List Warning :=
  s.findings.warnings ++ s.findings.breach.toList.map .breach

end Cambio.Settings
