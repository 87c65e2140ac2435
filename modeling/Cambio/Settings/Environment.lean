import Cambio.Json.Reader
import Cambio.Settings.Reader

/-!
# Settings from variables

What a record leaves open may come from variables. A variable is named after its section and its
field, with two underscores in between and in any case, or after a section whose members it gives
as JSON.

## Main definitions

- `Settings.Source` — where values come from
- `Settings.Unclear` — why surroundings hold no record
- `Settings.ofVariables` — the record of some variables
- `Settings.underlay` — a record over another, member by member
-/

namespace Cambio.Settings

open Dotenv (Variables)

/-- Where values come from. -/
inductive Source where
  | process
  | file
  /-- The files of a folder, one for each section. -/
  | folder
  deriving DecidableEq, Repr

/-- The name of a source in messages. -/
def Source.name : Source → String
  | .process => "EnvSettingsSource"
  | .file => "DotEnvSettingsSource"
  | .folder => "SecretsSettingsSource"

/-- Why surroundings hold no record. -/
inductive Unclear where
  /-- A value for a section is no JSON where it should be. -/
  | value (sectionName : String) (source : Source)
  /-- A value for a section cannot be had. -/
  | access (sectionName : String) (source : Source)
  /-- A value goes beyond what can be read. -/
  | document (error : Json.Error)
  /-- A file of variables is no text. -/
  | encoding (flaw : Text.Flaw)
  /-- A direction is of no use where it is followed. -/
  | misfit (misfit : Misfit)
  /-- The disk refuses the path of a file of variables. -/
  | disk (trouble : Disk.Trouble)
  /-- A file stands where there should be a folder for the files of sections. -/
  | noFolder
  deriving DecidableEq, Repr

/-- The wording for surroundings without a record. -/
def Unclear.message : Unclear → String
  | .value sectionName source =>
    s!"error parsing value for field \"{sectionName}\" from source \"{source.name}\""
  | .access sectionName source =>
    s!"error getting value for field \"{sectionName}\" from source \"{source.name}\""
  | .document error => error.message
  | .encoding flaw => flaw.message
  | .misfit m => m.message
  | .disk trouble => trouble.message
  | .noFolder => "secrets_dir must reference a directory, not a file"

/-- The sections with the names of their fields. -/
def sections : List (String × List String) :=
  match Settings.default.toJson with
  | .object ms => ms.map fun (name, fields) =>
    match fields with
    | .object fields => (name, fields.map Prod.fst)
    | _ => (name, [])
  | _ => []

/-- The fields that are lists, of which variables give the items as JSON. -/
def listFields : List (String × String) :=
  [("currency_api", "supported_currencies"), ("rate_cache", "major_currencies")]

/-! ## Records over records -/

/-- A record over another: members of both are kept, and of one name the upper counts, unless both
    are records themselves. -/
def underlay : Nat → List (String × Json) → List (String × Json) → List (String × Json)
  | 0, _, upper => upper
  | fuel + 1, lower, upper =>
    upper.foldl (fun ms entry =>
      match Entries.get? entry.1 ms, entry.2 with
      | some (.object a), .object b => Entries.put entry.1 (.object (underlay fuel a b)) ms
      | _, v => Entries.put entry.1 v ms) lower

/-- Records of settings are no deeper than their sections' variables can make them. -/
def depth : Nat := Json.depthLimit

/-- Writes a value under a path of names, unless a value in between is no record. -/
def putDeep (last : String) (value : Json) : List String → List (String × Json) →
    List (String × Json)
  | [], ms => Entries.put last value ms
  | name :: rest, ms =>
    match Entries.get? name ms with
    | none => Entries.put name (.object (putDeep last value rest [])) ms
    | some (.object inner) => Entries.put name (.object (putDeep last value rest inner)) ms
    | some _ => ms

/-! ## Variables -/

/-- The JSON of a text. -/
def decoded (sectionName : String) (source : Source) (s : String) : Except Unclear Json :=
  match Json.read .nearest s.toList with
  | .ok v => .ok v
  | .error e => .error (if e.isMalformed then .value sectionName source else .document e)

/-- The value of a variable for a field. -/
def fieldValue (g : Directions) (source : Source) (sectionName : String) (keys : List String)
    (last : String) (value : Option String) : Except Unclear Json :=
  match value with
  | none => .ok .null
  | some s =>
    if keys = [] ∧ (sectionName, last) ∈ listFields ∧ s ≠ "" then decoded sectionName source s
    else if g.nothing = some s then .ok .null
    else .ok (.text s)

/-- The members of a section that have variables of their own; `key` is the name of its own
    variable. -/
def fieldVariables (g : Directions) (source : Source) (sectionName key : String)
    (vars : Variables) : Except Unclear (List (String × Json)) :=
  let lead := key ++ g.delimiter
  if g.delimiter = "" then .ok []
  else
    vars.foldlM (fun ms (name, value) =>
      if name.startsWith lead then
        let keys := g.parts (name.drop lead.length).toString
        let last := keys.getLast?.getD ""
        (fieldValue g source sectionName keys.dropLast last value).map fun v =>
          putDeep last v keys.dropLast ms
      else .ok ms) []

/-- The members of a section under the names of its fields, by which they are found. -/
def withFieldNames (g : Directions) (fields : List String) (ms : List (String × Json)) :
    List (String × Json) :=
  Entries.ofPairs (ms.map fun (name, v) =>
    ((fields.find? fun field => field = g.key name).getD name, v))

/-- The value of a section, if variables give one. -/
def sectionValue (g : Directions) (source : Source) (vars : Variables) (sectionName : String)
    (fields : List String) : Except Unclear (Option Json) := do
  let key ← ((g.sectionKey? sectionName).map .ok).getD (.error (.access sectionName source))
  let own ← fieldVariables g source sectionName key vars
  match (vars.get? key).join with
  | none => return if own.isEmpty then none else some (.object (withFieldNames g fields own))
  | some s =>
    if g.nothing = some s then return some .null
    match ← decoded sectionName source s with
    | .null => return none
    | .object ms => return some (.object (withFieldNames g fields (underlay depth ms own)))
    | v => return some v

/-- The record of some variables. -/
def ofVariables (g : Directions) (source : Source) (vars : Variables) :
    Except Unclear (List (String × Json)) := do
  let vars := g.variablesOf vars
  let found ← sections.mapM fun (name, fields) => do
    return (← sectionValue g source vars name fields).toList.map fun v => (name, v)
  return found.flatten

end Cambio.Settings
