import Cambio.Currency
import Cambio.Misfit
import Cambio.Service.Config
import Cambio.Text.Address
import Cambio.Text.Lower

/-!
# Rules for single settings

What the settings say has to make sense by itself: addresses, currency codes, lists of codes, file
paths and words out of a small choice. A rule brings a value into its usual form or refuses it.

## Main definitions

- `Rule.Refusal` — why a value is refused
- `Rule.Outcome` — what becomes of a value of any sort
- `Rule.address`, `Rule.code`, `Rule.codes`, `Rule.filePath` — the rules
- `Rule.Level`, `Rule.Layout`, `Rule.Environment` — the choices
-/

namespace Cambio.Rule

/-- Why a value is refused. -/
inductive Refusal where
  | addressMissing
  | addressUnreadable (flaw : Address.Flaw)
  | addressUnusable (misfit : Misfit)
  | schemeMissing
  | schemeUnknown (allowed : List String)
  | hostMissing
  | codeMissing
  | codeMalformed
  | codeReserved (code : String)
  | listEmpty
  | pathMissing
  | pathCharacters (found : List Char)
  | pathOfFolder (path : String)
  | fileMissing (path : String)
  | levelUnknown (word : String)
  | layoutUnknown (word : String)
  | environmentUnknown (word : String)
  | referencesEqual
  deriving DecidableEq, Repr

/-- The wording of a refusal. -/
def Refusal.message : Refusal → String
  | .addressMissing => "URL is required"
  | .addressUnreadable flaw => s!"Invalid URL format: {flaw.message}"
  | .addressUnusable misfit => s!"Invalid URL format: {misfit.message}"
  | .schemeMissing => "URL must include a scheme (http:// or https://)"
  | .schemeUnknown allowed => "URL scheme must be one of: " ++ String.intercalate ", " allowed
  | .hostMissing => "URL must include a valid domain"
  | .codeMissing => "Currency code is required"
  | .codeMalformed => "Currency code must be 3 letters"
  | .codeReserved code => s!"Currency code '{code}' is reserved or invalid"
  | .listEmpty => "At least one currency code is required"
  | .pathMissing => "File path is required"
  | .pathCharacters found => "File path contains invalid characters: " ++ String.ofList found
  | .pathOfFolder path => s!"File path must name a file, not a directory: {path}"
  | .fileMissing path => s!"File does not exist: {path}"
  | .levelUnknown word => s!"Invalid log level: {word}. Must be one of"
  | .layoutUnknown word => s!"Invalid log format: {word}. Must be one of"
  | .environmentUnknown word => s!"Invalid environment: {word}. Must be one of"
  | .referencesEqual => "Primary and secondary reference currencies must differ"

/-- What becomes of a value of any sort under a rule for texts. -/
inductive Outcome (α : Type) where
  | accepted (value : α)
  | refused (refusal : Refusal)
  | misfit (misfit : Misfit)
  deriving DecidableEq, Repr

/-- The outcome of a rule that is made for the value. -/
def Outcome.ofExcept {α : Type} : Except Refusal α → Outcome α
  | .ok a => .accepted a
  | .error r => .refused r

/-- A rule for texts on a value of any sort: what stands for nothing is missing, another value
    that is no text cannot be used. -/
def onText {α : Type} (missing : Refusal) (use : String) (rule : String → Outcome α) :
    Json → Outcome α
  | .text s => rule s
  | v => if v.isVoid then .refused missing else .misfit (.lacks v.sort use)

/-! ## Addresses -/

/-- The schemes of the addresses of services. -/
def webSchemes : List String := ["http", "https"]

/-- An address with one of some schemes and a host; slashes at its end are dropped. -/
def address (schemes : List String) (s : String) : Except Refusal String :=
  if s = "" then .error .addressMissing
  else
    match Address.split? s.toList with
    | .error flaw => .error (.addressUnreadable flaw)
    | .ok parts =>
      if parts.scheme = [] then .error .schemeMissing
      else if String.ofList parts.scheme ∉ schemes then .error (.schemeUnknown schemes)
      else if parts.host = [] then .error .hostMissing
      else .ok (Service.Config.withoutEndSlashes s)

/-- The rule for addresses on a value of any sort; a value that is of no use is refused too. -/
def addressOf (schemes : List String) (v : Json) : Outcome String :=
  match onText .addressMissing "decode" (fun s => .ofExcept (address schemes s)) v with
  | .misfit m => .refused (.addressUnusable m)
  | outcome => outcome

/-! ## Currency codes -/

/-- Codes that stand for no currency: metals, tests and none at all. -/
def reservedCodes : List String := ["XXX", "XTS", "XAU", "XAG", "XPD", "XPT"]

/-- A code in capital letters and without blanks around it. -/
def code (s : String) : Except Refusal String :=
  if s = "" then .error .codeMissing
  else
    let letters := Text.trim (Text.upper s.toList)
    let code := String.ofList letters
    if !Currency.isCode letters then .error .codeMalformed
    else if code ∈ reservedCodes then .error (.codeReserved code)
    else .ok code

/-- The rule for codes on a value of any sort. -/
def codeOf : Json → Outcome String :=
  onText .codeMissing "upper" fun s => .ofExcept (code s)

/-- A code at the end of a list, unless the list has it. -/
def addCode (codes : List String) (code : String) : List String :=
  if code ∈ codes then codes else codes ++ [code]

/-- The codes of a list of values after those of `found`, each once. -/
def codesOf (found : List String) : List Json → Outcome (List String)
  | [] => if found.isEmpty then .refused .listEmpty else .accepted found
  | v :: rest =>
    match codeOf v with
    | .accepted code => codesOf (addCode found code) rest
    | .refused r => .refused r
    | .misfit m => .misfit m

/-- The values among which codes are looked for: the parts of a text between commas that are not
    blank, the items of a list and the names of an object. -/
def codeItems? : Json → Option (List Json)
  | .text s =>
    let parts := (Text.splitBy (· = ',') s.toList).filter fun part => !part.all Text.isBlank
    some (parts.map fun part => .text (String.ofList part))
  | .list items => some items
  | .object members => some (members.map fun entry => .text entry.1)
  | _ => none

/-- A list of codes, each once, of which there has to be one. -/
def codes (v : Json) : Outcome (List String) :=
  match codeItems? v with
  | some items => codesOf [] items
  | none => .misfit (.noItems v.sort)

/-! ## File paths -/

/-- Characters that no path may have, in the order in which they are reported. -/
def forbiddenChars : List Char := ['<', '>', '"', '|', '?', '*']

/-- A path of a file. -/
def filePath (s : String) : Except Refusal String :=
  let found := forbiddenChars.filter (· ∈ s.toList)
  if s.toList.all Text.isBlank then .error .pathMissing
  else if found ≠ [] then .error (.pathCharacters found)
  else if s.endsWith "/" || s.endsWith "\\" then .error (.pathOfFolder s)
  else .ok s

/-- A path of a file that is there. -/
def existingFile (d : Disk) (s : String) : Outcome String :=
  match filePath s with
  | .error r => .refused r
  | .ok s =>
    match d.look (.ofText s) with
    | .error trouble => .misfit (.disk trouble)
    | .ok (some (.file _)) => .accepted s
    | .ok _ => .refused (.fileMissing s)

/-- The rule for paths on a value of any sort; where a disk is given, the file has to be there. -/
def filePathOf (d : Option Disk) : Json → Outcome String :=
  onText .pathMissing "strip" fun s =>
    match d with
    | some d => existingFile d s
    | none => .ofExcept (filePath s)

/-! ## Choices -/

/-- How much is logged. -/
inductive Level where
  | debug
  | info
  | warning
  | error
  | critical
  deriving DecidableEq, Repr

/-- All levels, lowest first. -/
def Level.all : List Level := [.debug, .info, .warning, .error, .critical]

/-- The written name of a level. -/
def Level.name : Level → String
  | .debug => "DEBUG"
  | .info => "INFO"
  | .warning => "WARNING"
  | .error => "ERROR"
  | .critical => "CRITICAL"

/-- The level of a word in any case. -/
def level (s : String) : Except Refusal Level :=
  match Level.all.find? (·.name = Text.upperString s) with
  | some level => .ok level
  | none => .error (.levelUnknown s)

/-- How the log is written. -/
inductive Layout where
  | text
  | json
  deriving DecidableEq, Repr

/-- The written name of a layout. -/
def Layout.name : Layout → String
  | .text => "text"
  | .json => "json"

/-- A text in small letters. -/
def lowered (s : String) : String :=
  String.ofList (Text.lower s.toList)

/-- The layout of a word in any case. -/
def layout (s : String) : Except Refusal Layout :=
  match [Layout.json, Layout.text].find? (·.name = lowered s) with
  | some layout => .ok layout
  | none => .error (.layoutUnknown s)

/-- Where the program runs. -/
inductive Environment where
  | development
  | staging
  | production
  deriving DecidableEq, Repr

/-- The written name of an environment. -/
def Environment.name : Environment → String
  | .development => "development"
  | .staging => "staging"
  | .production => "production"

/-- The environment of a word in any case. -/
def environment (s : String) : Except Refusal Environment :=
  match [Environment.development, .staging, .production].find? (·.name = lowered s) with
  | some environment => .ok environment
  | none => .error (.environmentUnknown s)

end Cambio.Rule
