import Cambio.Breakdown
import Cambio.Json.Writer
import Cambio.Rates.Document

/-!
# The rate file

All rates are kept in one file, which is read once and written as a whole. A file that is missing
or holds no document of rates is as good as none. A file is replaced only after the new one has
been written in full.

## Main definitions

- `RateFile.contents` — the bytes of a document
- `RateFile.ofContents` — the document of the bytes
- `RateFile.load`, `RateFile.save` — reading and writing the file under a path
-/

namespace Cambio.RateFile

/-- The bytes of a document: indented JSON in basic characters. -/
def contents (document : RateDocument) : List UInt8 :=
  Text.encodeUtf8 (document.toJson.writeIndented Json.basic)

/-- The document of the bytes of a file. A text that is no document is none; bytes that are no
    text and documents that go beyond what can be read are errors. -/
def ofContents (bytes : List UInt8) : Except Json.Error (Option RateDocument) :=
  match Text.decodeUtf8? bytes with
  | .error flaw => .error (.encoding flaw)
  | .ok s =>
    match Json.read .exact s with
    | .ok v => .ok (RateDocument.ofJson v).toOption
    | .error e => if e.isMalformed then .ok none else .error e

/-- The document in the file under a path, if there is one. -/
def load (d : Disk) (p : Path) : Except Breakdown (Option RateDocument) :=
  match d.look p with
  | .error trouble => .error (.disk trouble)
  | .ok (some (.file bytes)) => (ofContents bytes).mapError .document
  | .ok _ => .ok none

/-- The path under which a new file is written before it replaces the one under a path; some
    letters of its name are left to chance. -/
def draft (p : Path) (letters : String) : Path :=
  let name := p.names.getLast?.getD ""
  { p with names := p.names.dropLast ++ [s!".{name}.{letters}.tmp"] }

/-- Letters for the names of drafts, in the order in which they are tried. -/
def draftLetters : List String :=
  (List.range 10000).map fun k => String.ofList (Text.hexDigits 8 k)

/-- Makes an empty draft for the file under a path, with the first letters that give its name to no
    other file, and tells its place. -/
def makeDraft (d : Disk) (p : Path) : List String → Except Disk.Trouble (Disk.Place × Disk)
  | [] => .error ⟨.taken, p⟩
  | letters :: more =>
    match d.create (draft p letters) with
    | .ok made => .ok made
    | .error .taken => makeDraft d p more
    | .error r => .error ⟨r, draft p letters⟩

/-- A refusal of the disk means that nothing is saved, but a path that is no path at all ends the
    work. -/
def refused (trouble : Disk.Trouble) : Except Breakdown Bool :=
  if trouble.refusal = .badName then .error (.disk trouble) else .ok false

/-- Replaces the file under a path by way of a draft, which is taken away when that fails. -/
def replace (letters : List String) (d : Disk) (p : Path) (bytes : List UInt8) :
    Disk × Option Disk.Trouble :=
  match makeDraft d p letters with
  | .error trouble => (d, some trouble)
  | .ok (place, d) =>
    let d := d.put place (.file bytes)
    match d.move place p with
    | .ok d => (d, none)
    | .error trouble => (d.remove place, some trouble)

/-- Writes a book of rates into the file under a path; tells whether that worked. Rates that make
    no document are reported before anything is written. `letters` are tried for the draft. -/
def saveTrying (letters : List String) (d : Disk) (p : Path) (timestamp : String)
    (book : RateBook) : Disk × Except Breakdown Bool :=
  match RateDocument.ofBook timestamp book with
  | .error report => (d, .error (.record report))
  | .ok document =>
    match d.makeFolders p.parent with
    | (d, some trouble) => (d, refused trouble)
    | (d, none) =>
      match replace letters d p (contents document) with
      | (d, none) => (d, .ok true)
      | (d, some trouble) => (d, refused trouble)

/-- Writes a book of rates into the file under a path; tells whether that worked. -/
def save (d : Disk) (p : Path) (timestamp : String) (book : RateBook) :
    Disk × Except Breakdown Bool :=
  saveTrying draftLetters d p timestamp book

end Cambio.RateFile
