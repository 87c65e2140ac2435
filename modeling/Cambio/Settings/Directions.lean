import Cambio.Misfit
import Cambio.Settings.Rules
import Cambio.Text.Charset
import Cambio.Text.Dotenv
import Cambio.Text.Lower

/-!
# Directions for reading settings

A record of settings may also say how what surrounds it is to be read: which files hold variables,
how variables are named, and in which folders there are files for whole sections. What it does not
say is as usual.

## Main definitions

- `Settings.Directions` — how the surroundings are read
- `Settings.Directions.ofMembers` — the directions among the members of a record
- `Settings.Directions.key` — the name under which a variable is found
- `Settings.Reserved` — names that no member of a record may have
-/

namespace Cambio.Settings

open Dotenv (Variables)

/-- The name of the file of variables. -/
def variablesFile : String := ".env"

/-- The encoding of the files of variables, or why they have none. -/
inductive FileEncoding where
  | known (charset : Text.NamedCharset)
  | unusable (misfit : Misfit)
  deriving DecidableEq, Repr

/-- How what surrounds a record is read. -/
structure Directions where
  /-- The files of variables; of one name the last file counts. -/
  files : List Path
  encoding : FileEncoding
  /-- The folders with a file for each section; the last of them counts. -/
  folders : List Path
  /-- What the names of all variables start with, unless that is no text. -/
  lead : Option String
  /-- What stands between the names of a section and its field. -/
  delimiter : String
  /-- The most places at which the name of a field is divided. -/
  divisions : Option Nat
  isCaseSensitive : Bool
  /-- A variable without characters counts as none. -/
  ignoresEmpty : Bool
  /-- The value that stands for nothing. -/
  nothing : Option String
  deriving DecidableEq, Repr

namespace Directions

/-- The usual directions. -/
def usual : Directions where
  files := [.ofText variablesFile]
  encoding := .known (.exactly .utf8)
  folders := []
  lead := some ""
  delimiter := "__"
  divisions := none
  isCaseSensitive := false
  ignoresEmpty := false
  nothing := none

/-- The path of a value; one from the home folder on leads out of the working folder. -/
def pathOf : Json → Except Misfit Path
  | .text s => .ok (if s.startsWith "~" then .ofText ("/" ++ s) else .ofText s)
  | v => .error (.noPath v.sort)

/-- The paths of a value: one, some or none. -/
def pathsOf : Json → Except Misfit (List Path)
  | .null => .ok []
  | .text s => (pathOf (.text s)).map ([·])
  | .list items => items.mapM pathOf
  | .object members => members.mapM fun entry => pathOf (.text entry.1)
  | v => .error (.noItems v.sort)

/-- The text of a member. -/
def text? (ms : List (String × Json)) (name : String) : Option String :=
  match Entries.get? name ms with
  | some (.text s) => some s
  | _ => none

/-- A member says yes. -/
def isSet (ms : List (String × Json)) (name : String) : Bool :=
  match Entries.get? name ms with
  | some v => !v.isVoid
  | none => false

/-- The value of a member that says something. -/
def said? (ms : List (String × Json)) (name : String) : Option Json :=
  match Entries.get? name ms with
  | some .null => none
  | v => v

/-- The places at which names are divided: one less than the count that is said, if it is any. -/
def divisionsOf (ms : List (String × Json)) : Except Misfit (Option Nat) :=
  match said? ms "_env_nested_max_split" with
  | some (.whole n) => .ok (if 0 < n then some (n.toNat - 1) else none)
  | some (.bool b) => .ok (if b then some 0 else none)
  | some (.binary _) => .ok none
  | some v => if v.isVoid then .ok none else .error (.noDifference v.sort)
  | none => .ok none

/-- What the names of all variables start with. A value that has items is no text, but is found to
    be none only later. -/
def leadOf (ms : List (String × Json)) : Except Misfit (Option String) :=
  match said? ms "_env_prefix" with
  | none => .ok usual.lead
  | some (.text s) => .ok (some s)
  | some (.list _) => .ok none
  | some (.object _) => .ok none
  | some v => .error (.noLength v.sort)

/-- What stands between names; a value that is no text divides nothing. -/
def delimiterOf (ms : List (String × Json)) : String :=
  match said? ms "_env_nested_delimiter" with
  | none => usual.delimiter
  | some (.text s) => s
  | some _ => ""

/-- The encoding of the files of variables. -/
def encodingOf (ms : List (String × Json)) : FileEncoding :=
  match said? ms "_env_file_encoding" with
  | none => usual.encoding
  | some v =>
    if v.isVoid then usual.encoding
    else
      match v with
      | .text name =>
        match Text.NamedCharset.ofName? name with
        | some charset => .known charset
        | none => .unusable (.encodingUnknown name)
      | v => .unusable (.noEncoding v.sort)

/-- The directions among the members of a record. -/
def ofMembers (ms : List (String × Json)) : Except Misfit Directions := do
  let divisions ← divisionsOf ms
  let lead ← leadOf ms
  let files ← ((Entries.get? "_env_file" ms).map pathsOf).getD (.ok usual.files)
  let folders ← ((Entries.get? "_secrets_dir" ms).map pathsOf).getD (.ok usual.folders)
  return { files, folders, lead, divisions
           encoding := encodingOf ms
           delimiter := delimiterOf ms
           isCaseSensitive := isSet ms "_case_sensitive"
           ignoresEmpty := isSet ms "_env_ignore_empty"
           nothing := text? ms "_env_parse_none_str" }

/-- The name under which a variable is found. -/
def key (g : Directions) (name : String) : String :=
  if g.isCaseSensitive then name else Rule.lowered name

/-- The name under which the variable of a section is found. -/
def sectionKey? (g : Directions) (sectionName : String) : Option String :=
  g.lead.map fun lead => g.key (lead ++ sectionName)

/-- The variables that count, under the names by which they are found. -/
def variablesOf (g : Directions) (vars : Variables) : Variables :=
  let counted := vars.filter fun entry => !(g.ignoresEmpty && entry.2 == some "")
  Entries.ofPairs (counted.map fun (name, v) => (g.key name, v))

/-- The parts of the name of a field. -/
def parts (g : Directions) (name : String) : List String :=
  let all := name.splitOn g.delimiter
  match g.divisions with
  | none => all
  | some n =>
    if all.length ≤ n then all
    else all.take n ++ [String.intercalate g.delimiter (all.drop n)]

end Directions

/-! ## Reserved names -/

/-- Names that no member of a record may have. -/
structure Reserved where
  /-- Names that the reader needs for itself. -/
  needed : List String
  /-- Names of directions that are given already. -/
  given : List String
  deriving DecidableEq, Repr

/-- A member of a record has a reserved name. -/
structure NameClash where
  name : String
  isGiven : Bool
  deriving DecidableEq, Repr

/-- The wording of a clash of names. -/
def NameClash.message (c : NameClash) : String :=
  let call :=
    if c.isGiven then "calcfx.config.settings.Settings"
    else if c.name = "self" then "Settings.__init__"
    else "BaseSettings.__init__"
  let sort := if c.isGiven then "keyword argument" else "argument"
  s!"{call}() got multiple values for {sort} '{c.name}'"

namespace Reserved

/-- The names that the reader needs for itself. -/
def usual : Reserved := ⟨["self", "__pydantic_self__"], []⟩

/-- No file of variables is to be read, whatever the record says. -/
def withoutFiles (r : Reserved) : Reserved :=
  { r with given := "_env_file" :: r.given }

/-- The first reserved name that a member has; those of given directions come first. -/
def clash? (r : Reserved) (ms : List (String × Json)) : Option NameClash :=
  let first (names : List String) : Option String :=
    names.find? fun name => (Entries.get? name ms).isSome
  ((first r.given).map fun name => ⟨name, true⟩).or
    ((first r.needed).map fun name => ⟨name, false⟩)

/-- The directions of a record, of which those that are given already are left out. -/
def directions (r : Reserved) (ms : List (String × Json)) : Except Misfit Directions :=
  (Directions.ofMembers ms).map fun g =>
    if r.given.contains "_env_file" then { g with files := [] } else g

end Reserved

end Cambio.Settings
