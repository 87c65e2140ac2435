import Cambio.Settings.Environment

/-!
# Settings and their surroundings

A record of settings lies over what surrounds it: the variables of the process, below them files of
variables, and at the bottom folders that hold a file for each section. What is noticed on the way
is kept as well, also when there are no settings in the end.

## Main definitions

- `Settings.Surroundings` — the variables of the process and the disk
- `Settings.Notice` — what is noticed on the way
- `Settings.ofSources` — the settings of a record and its surroundings
-/

namespace Cambio.Settings

open Dotenv (Variables)

/-- What surrounds a record: the variables of the process and the disk. -/
structure Surroundings where
  vars : Variables
  disk : Disk
  deriving DecidableEq, Repr

/-! ## Files of variables -/

/-- The text of a file of variables. -/
def FileEncoding.decode? (encoding : FileEncoding) (bytes : List UInt8) :
    Except Unclear (List Char) :=
  match encoding with
  | .known charset => (charset.decode? bytes).mapError .encoding
  | .unusable misfit => .error (.misfit misfit)

/-- The variables of a file; a file that is not there has none. -/
def Surroundings.variablesOf (g : Directions) (s : Surroundings) (p : Path) :
    Except Unclear Variables :=
  match s.disk.look p with
  | .error trouble => .error (.disk trouble)
  | .ok (some (.file bytes)) => (g.encoding.decode? bytes).map (Dotenv.read s.vars)
  | .ok _ => .ok []

/-- The variables of all files; of one name the last file counts. -/
def Surroundings.fileVariables (g : Directions) (s : Surroundings) : Except Unclear Variables :=
  g.files.foldlM (fun vars p => do
    return Entries.putAll vars (g.variablesOf (← s.variablesOf g p))) []

/-! ## Folders with files for sections -/

/-- What is noticed on the way. -/
inductive Notice where
  | folderMissing (path : Path)
  /-- A folder stands where there should be a file for a section. -/
  | sectionIsFolder (path : Path)
  deriving DecidableEq, Repr

/-- The wording of a notice. -/
def Notice.message : Notice → String
  | .folderMissing path => s!"directory \"{path.text}\" does not exist"
  | .sectionIsFolder path =>
    s!"attempted to load secret file \"{path.text}\" but found a directory instead."

/-- The name in a folder under which a section is found: just that, or the first that differs in
    case only. -/
def nameIn? (g : Directions) (d : Disk) (p : Path) (wanted : String) : Option String :=
  match d.locate p with
  | .error _ => none
  | .ok place =>
    let names := d.nodes.filterMap fun (other, _) =>
      if other.dropLast = place then other.getLast? else none
    if wanted ∈ names then some wanted else names.find? fun name => g.key name = wanted

/-- The text of the file for a section, from the last folder that has one. -/
def sectionFile (g : Directions) (d : Disk) (wanted : String) :
    List Path → List Notice × Option (Except Text.Flaw (List Char))
  | [] => ([], none)
  | p :: rest =>
    match nameIn? g d p wanted with
    | none => sectionFile g d wanted rest
    | some name =>
      let file : Path := { p with names := p.names ++ [name] }
      match d.read? file with
      | some bytes => ([], some ((Text.decodeUtf8? bytes).map Text.trim))
      | none =>
        let (notices, found) := sectionFile g d wanted rest
        (.sectionIsFolder file :: notices, found)

/-- The value of a section from the folders. -/
def folderValue (g : Directions) (d : Disk) (folders : List Path) (sectionName : String)
    (fields : List String) : List Notice × Except Unclear (Option Json) :=
  let key := (g.sectionKey? sectionName).getD sectionName
  let (notices, found) := sectionFile g d key folders.reverse
  let value :=
    match found with
    | none => .ok none
    | some (.error _) => .error (.access sectionName .folder)
    | some (.ok s) =>
      (decoded sectionName .folder (String.ofList s)).map fun v =>
        match v with
        | .null => none
        | .object ms => some (.object (withFieldNames g fields ms))
        | v => some v
  (notices, value)

/-- The record of sections from the folders. -/
def folderRecord (g : Directions) (d : Disk) (folders : List Path) :
    List (String × List String) → List Notice × Except Unclear (List (String × Json))
  | [] => ([], .ok [])
  | (name, fields) :: rest =>
    match folderValue g d folders name fields with
    | (notices, .error u) => (notices, .error u)
    | (notices, .ok v) =>
      let (more, record) := folderRecord g d folders rest
      (notices ++ more, record.map (v.toList.map (fun v => (name, v)) ++ ·))

/-- The record of the folders that are there. -/
def ofFolders (g : Directions) (d : Disk) : List Notice × Except Unclear (List (String × Json)) :=
  match g.folders.find? fun p => !(d.look p).toBool with
  | some p => ([], .error (.disk ⟨.longName, p⟩))
  | none =>
    let present := g.folders.filter fun p => (d.at? p).isSome
    let missing := g.folders.filter fun p => (d.at? p).isNone
    let noticed := missing.map Notice.folderMissing
    if present.isEmpty then (noticed, .ok [])
    else if present.any fun p => !d.isFolder p then (noticed, .error .noFolder)
    else
      let (more, record) := folderRecord g d present sections
      (noticed ++ more, record)

/-! ## All together -/

/-- Why a record and its surroundings hold no settings. -/
inductive SourceFailure where
  | unclear (unclear : Unclear)
  | failure (failure : Failure)
  deriving DecidableEq, Repr

/-- The record of the surroundings; files of variables are opened before anything else. -/
def Surroundings.members (g : Directions) (s : Surroundings) :
    List Notice × Except Unclear (List (String × Json)) :=
  let record := do
    let file ← s.fileVariables g
    let upper ← ofVariables g .process s.vars
    return underlay depth (← ofVariables g .file file) upper
  match record with
  | .error u => ([], .error u)
  | .ok upper =>
    let (notices, lower) := ofFolders g s.disk
    (notices, lower.map fun lower => underlay depth lower upper)

/-- What a reading came to, and what was noticed on the way. -/
structure Reading (ε : Type) where
  result : Except ε Settings
  notices : List Notice

/-- The settings of a record and its surroundings. -/
def ofSources (r : Reserved) (s : Surroundings) (ms : List (String × Json)) :
    Reading SourceFailure :=
  match r.clash? ms, r.directions ms with
  | some clash, _ => ⟨.error (.failure (.clash clash)), []⟩
  | none, .error m => ⟨.error (.failure (.misfit m)), []⟩
  | none, .ok g =>
    let (notices, lower) := s.members g
    let result := do
      let lower ← lower.mapError .unclear
      (ofSections (underlay depth lower (sectionsOf g ms))).mapError .failure
    ⟨result, notices⟩

end Cambio.Settings
