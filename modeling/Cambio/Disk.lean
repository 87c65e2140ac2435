import Cambio.Entries
import Cambio.Text.Blank
import Cambio.Text.Quoted

/-!
# Files

The files and folders below the working folder. A path is read from the working folder on;
whatever lies outside of it cannot be reached.

## Main definitions

- `Path` — a path in its shortest form without looking at the disk
- `Disk` — files and folders by place
- `Disk.Trouble` — why the disk refuses a path
- `Disk.at?`, `Disk.look`, `Disk.read?` — what is found under a path
- `Disk.makeFolders`, `Disk.write`, `Disk.writeDeep` — changing the disk
- `Disk.create`, `Disk.move` — a file that is new, and one that takes the place of another
-/

namespace Cambio

/-- A path: the slashes it starts with and its names. -/
structure Path where
  root : String
  names : List String
  deriving DecidableEq, Repr

namespace Path

/-- The name of the folder above. -/
def up : String := ".."

/-- The path of a text. Empty names and names for the same folder are dropped; three and more
    slashes at the start count as one. -/
def ofText (s : String) : Path :=
  let slashes := (s.toList.takeWhile (· = '/')).length
  let names := (Text.splitBy (· = '/') s.toList).filter fun name => name ≠ [] ∧ name ≠ ['.']
  { root := if slashes = 0 then "" else if slashes = 2 then "//" else "/"
    names := names.map String.ofList }

/-- The text of a path. The working folder is written as a point. -/
def text (p : Path) : String :=
  if p.root = "" ∧ p.names = [] then "." else p.root ++ String.intercalate "/" p.names

/-- The folder that holds what the path leads to. -/
def parent (p : Path) : Path :=
  { p with names := p.names.dropLast }

end Path

/-- The names that lead from the working folder to a file or folder. -/
abbrev Disk.Place := List String

/-- What is found at a place. -/
inductive Disk.Node where
  | file (bytes : List UInt8)
  | folder
  deriving DecidableEq, Repr

/-- The files and folders below the working folder, by place. -/
structure Disk where
  nodes : List (Disk.Place × Disk.Node)
  deriving DecidableEq, Repr

namespace Disk

/-! ## Refusals -/

/-- Why a disk refuses. -/
inductive Refusal where
  /-- A folder on the way is missing. -/
  | missing
  /-- There is something already. -/
  | taken
  /-- A name on the way is that of a file. -/
  | noFolder
  /-- A folder stands where a file should. -/
  | isFolder
  | longName
  /-- The path leads out of the working folder. -/
  | outside
  /-- A name has a character that no name may have. -/
  | badName
  deriving DecidableEq, Repr

/-- The number of a refusal; a path that is no path at all has none. -/
def Refusal.number? : Refusal → Option Nat
  | .missing => some 2
  | .outside => some 13
  | .taken => some 17
  | .noFolder => some 20
  | .isFolder => some 21
  | .longName => some 36
  | .badName => none

/-- The words for a refusal. -/
def Refusal.words : Refusal → String
  | .missing => "No such file or directory"
  | .outside => "Permission denied"
  | .taken => "File exists"
  | .noFolder => "Not a directory"
  | .isFolder => "Is a directory"
  | .longName => "File name too long"
  | .badName => "embedded null byte"

/-- A refusal and the path that met it. -/
structure Trouble where
  refusal : Refusal
  path : Path
  deriving DecidableEq, Repr

/-- The wording of a trouble. -/
def Trouble.message (t : Trouble) : String :=
  match t.refusal.number? with
  | some n => s!"[Errno {n}] {t.refusal.words}: {Text.quotedString t.path.text}"
  | none => t.refusal.words

/-- The most bytes of a name. -/
def nameLimit : Nat := 255

/-- The most bytes of a path. -/
def pathLimit : Nat := 4095

/-! ## Looking -/

/-- A disk without files. -/
def empty : Disk := ⟨[]⟩

/-- What is found at a place; the working folder is always there. -/
def node? (d : Disk) (place : Place) : Option Node :=
  if place = [] then some .folder else d.nodes.lookup place

/-- Puts a file or a folder at a place. -/
def put (d : Disk) (place : Place) (node : Node) : Disk :=
  ⟨(place, node) :: d.nodes.filter (·.1 ≠ place)⟩

/-- Takes away what is at a place. -/
def remove (d : Disk) (place : Place) : Disk :=
  ⟨d.nodes.filter (·.1 ≠ place)⟩

/-- Follows names from a place; every name but the last has to be that of a folder. -/
def follow (d : Disk) (place : Place) : List String → Except Refusal Place
  | [] => .ok place
  | name :: rest =>
    match d.node? place with
    | none => .error .missing
    | some (.file _) => .error .noFolder
    | some .folder =>
      if name = Path.up then
        if place = [] then .error .outside else follow d place.dropLast rest
      else if nameLimit < name.utf8ByteSize then .error .longName
      else follow d (place ++ [name]) rest

/-- The place that a path leads to. There need not be anything. -/
def locate (d : Disk) (p : Path) : Except Refusal Place :=
  if p.text.toList.contains '\x00' then .error .badName
  else if pathLimit < p.text.utf8ByteSize then .error .longName
  else if p.root = "" then d.follow [] p.names
  else .error .outside

/-- What is found under a path. -/
def at? (d : Disk) (p : Path) : Option Node :=
  (d.locate p).toOption.bind d.node?

/-- What is found under a path, where a path that is too long for any disk is a trouble. -/
def look (d : Disk) (p : Path) : Except Trouble (Option Node) :=
  match d.locate p with
  | .ok place => .ok (d.node? place)
  | .error .longName => .error ⟨.longName, p⟩
  | .error _ => .ok none

/-- The contents of the file under a path. -/
def read? (d : Disk) (p : Path) : Option (List UInt8) :=
  match d.at? p with
  | some (.file bytes) => some bytes
  | _ => none

/-! ## Changing -/

/-- Makes a folder, for which there has to be room in another one. -/
def makeFolder (d : Disk) (p : Path) : Except Refusal Disk :=
  match d.locate p with
  | .error r => .error r
  | .ok place =>
    match d.node? place with
    | some _ => .error .taken
    | none => .ok (d.put place .folder)

/-- A path leads to a folder. -/
def isFolder (d : Disk) (p : Path) : Bool :=
  d.at? p = some .folder

/-- Makes a folder or finds one; any other refusal is a trouble. -/
def provideFolder (d : Disk) (p : Path) : Disk × Option Trouble :=
  match d.makeFolder p with
  | .ok d => (d, none)
  | .error r => (d, if d.isFolder p then none else some ⟨r, p⟩)

/-- Makes the folder of some names, last name first. When a folder above is missing, that one is
    made before. -/
def provideFolders (root : String) (d : Disk) : List String → Disk × Option Trouble
  | [] => (d, none)
  | name :: above =>
    let p : Path := ⟨root, (name :: above).reverse⟩
    match d.makeFolder p with
    | .ok d => (d, none)
    | .error .missing =>
      match provideFolders root d above with
      | (d, none) => d.provideFolder p
      | (d, some trouble) => (d, some trouble)
    | .error _ => d.provideFolder p

/-- Makes the folders of a path that are missing. -/
def makeFolders (d : Disk) (p : Path) : Disk × Option Trouble :=
  d.provideFolders p.root p.names.reverse

/-- Puts a file under a path, whose folder has to be there. A file is replaced at once, a folder
    is never replaced. -/
def write (d : Disk) (p : Path) (bytes : List UInt8) : Except Trouble Disk :=
  match d.locate p with
  | .error r => .error ⟨r, p⟩
  | .ok place =>
    if d.node? place = some .folder then .error ⟨.isFolder, p⟩
    else .ok (d.put place (.file bytes))

/-- Makes an empty file under a path that leads to nothing yet, and tells its place. -/
def create (d : Disk) (p : Path) : Except Refusal (Place × Disk) :=
  match d.locate p with
  | .error r => .error r
  | .ok place =>
    match d.node? place with
    | some _ => .error .taken
    | none => .ok (place, d.put place (.file []))

/-- Puts what is at a place under a path. A file there is replaced at once, a folder is never
    replaced. -/
def move (d : Disk) (source : Place) (p : Path) : Except Trouble Disk :=
  match d.locate p with
  | .error r => .error ⟨r, p⟩
  | .ok target =>
    match d.node? target, d.node? source with
    | some .folder, _ => .error ⟨.isFolder, p⟩
    | _, none => .error ⟨.missing, p⟩
    | _, some node => .ok ((d.remove source).put target node)

/-- Puts a file under a path and makes the folders that are missing. When that fails, folders may
    have been made all the same. -/
def writeDeep (d : Disk) (p : Path) (bytes : List UInt8) : Disk × Option Trouble :=
  match d.makeFolders p.parent with
  | (d, some trouble) => (d, some trouble)
  | (d, none) =>
    match d.write p bytes with
    | .ok d => (d, none)
    | .error trouble => (d, some trouble)

end Disk

end Cambio
