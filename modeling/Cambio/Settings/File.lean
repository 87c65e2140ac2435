import Cambio.Json.Writer
import Cambio.Settings.Sources
import Cambio.Text.Bytes

/-!
# The settings file

Settings are kept in a file. When there is none, one with the defaults is made. A file that cannot
be used is left as it is, and the defaults hold.

## Main definitions

- `Settings.contents`, `Settings.ofContents` — the bytes of settings, and back
- `Settings.defaults` — what holds if the file cannot be used
- `Settings.load`, `Settings.save` — reading and writing the file under a path
-/

namespace Cambio.Settings

/-- The name of the settings file. -/
def fileName : String := "app_config.json"

/-- The bytes of settings: indented JSON. There are none if a text holds half of a pair. -/
def contents (s : Settings) : Except Text.Unwritable (List UInt8) :=
  match s.toJson.texts.findSome? fun text => Text.unwritable? text.toList with
  | some u => .error u
  | none => .ok (Text.encodeUtf8 (s.toJson.writeIndented Json.plain))

/-- The wording for settings that have no bytes. -/
def unwritableMessage (u : Text.Unwritable) : String :=
  "Error serializing to JSON: UnicodeEncodeError: " ++ u.message

/-- Why reading or writing a file ends the work. -/
inductive Halt where
  | document (error : Json.Error)
  | misfit (misfit : Misfit)
  | clash (clash : NameClash)
  | disk (trouble : Disk.Trouble)
  /-- The variables of the process hold no record. -/
  | variables (unclear : Unclear)
  /-- The settings have no bytes. -/
  | unwritable (unwritable : Text.Unwritable)
  deriving DecidableEq, Repr

/-- The defaults. The variables of the process are looked at all the same, though nothing is taken
    from them. -/
def defaults (vars : Dotenv.Variables) : Except Halt Settings :=
  match ofVariables .usual .process vars with
  | .ok _ => .ok default
  | .error (.document e) => .error (.document e)
  | .error u => .error (.variables u)

/-- The failures after which not even the defaults hold. -/
def SourceFailure.halt? : SourceFailure → Option Halt
  | .unclear (.document e) => some (.document e)
  | .unclear (.misfit m) => some (.misfit m)
  | .unclear _ => none
  | .failure (.misfit m) => some (.misfit m)
  | .failure (.clash c) => some (.clash c)
  | .failure (.report _) => none

/-- The settings of a record and its surroundings, or the defaults. -/
def ofRecord (s : Surroundings) (ms : List (String × Json)) : Reading Halt :=
  let reading := ofSources .usual s ms
  match reading.result with
  | .ok settings => ⟨.ok settings, reading.notices⟩
  | .error failure =>
    match failure.halt? with
    | some halt => ⟨.error halt, reading.notices⟩
    | none => ⟨defaults s.vars, reading.notices⟩

/-- The settings of the bytes of a file, or the defaults. -/
def ofContents (s : Surroundings) (bytes : List UInt8) : Reading Halt :=
  match Text.decodeUtf8? bytes with
  | .error _ => ⟨defaults s.vars, []⟩
  | .ok text =>
    match Json.read .nearest text with
    | .ok (.object ms) => ofRecord s ms
    | .ok _ => ⟨defaults s.vars, []⟩
    | .error e => if e.isMalformed then ⟨defaults s.vars, []⟩ else ⟨.error (.document e), []⟩

/-- A trouble on the way to a file. A path that is no path at all ends the work. -/
def unsaved (trouble : Disk.Trouble) : Except Halt Bool :=
  if trouble.refusal = .badName then .error (.disk trouble) else .ok false

/-- Writes settings into the file under a path; tells whether that worked. Settings without bytes
    end the work, once the folders are there. -/
def save (s : Settings) (d : Disk) (p : Path) : Disk × Except Halt Bool :=
  match s.contents with
  | .ok bytes =>
    match d.writeDeep p bytes with
    | (d, none) => (d, .ok true)
    | (d, some trouble) => (d, unsaved trouble)
  | .error u =>
    match d.makeFolders p.parent with
    | (d, none) => (d, .error (.unwritable u))
    | (d, some trouble) => (d, unsaved trouble)

/-- The settings of the file under a path. A missing file is made; one that holds no settings is
    left as it is. -/
def load (vars : Dotenv.Variables) (d : Disk) (p : Path) : Reading Halt × Disk :=
  match d.look p with
  | .error trouble => (⟨.error (.disk trouble), []⟩, d)
  | .ok none =>
    match defaults vars with
    | .error halt => (⟨.error halt, []⟩, d)
    | .ok settings =>
      let (d, saved) := save settings d p
      (⟨saved.map fun _ => settings, []⟩, d)
  | .ok (some .folder) => (⟨defaults vars, []⟩, d)
  | .ok (some (.file bytes)) => (ofContents ⟨vars, d⟩ bytes, d)

end Cambio.Settings
