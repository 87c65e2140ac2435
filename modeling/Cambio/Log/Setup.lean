import Cambio.Settings.Basic

/-!
# Setting up the log

What the settings make of the log: its level, how entries are written and whether they also go to
a file, which is made when there is none.

## Main definitions

- `Log.Setup` — what the log is like
- `Log.Setup.ofSettings` — the log that settings ask for
- `Log.Setup.openFile` — makes the file of the log
-/

namespace Cambio.Log

/-- A file that is replaced when it grows too large. -/
structure FileLimits where
  path : Path
  maxBytes : Nat
  backups : Nat
  deriving DecidableEq, Repr

/-- What the log is like. -/
structure Setup where
  level : Rule.Level
  /-- Entries are written as documents and not as lines to read. -/
  asDocuments : Bool
  file : Option FileLimits
  deriving DecidableEq, Repr

namespace Setup

/-- The log that settings ask for. During development it is always written to be read. -/
def ofSettings (s : Settings) : Setup where
  level := s.logging.level
  asDocuments := s.application.environment ≠ .development ∧ s.logging.layout ≠ .text
  file :=
    if s.logging.toFile then
      some ⟨.ofText s.logging.filePath, s.logging.maxBytes, s.logging.backups⟩
    else none

/-- The level under which entries of the network are dropped. -/
def networkLevel : Rule.Level := .warning

/-- Makes the file of the log and the folders above it, unless they are there. -/
def openFile (setup : Setup) (d : Disk) : Disk × Option Disk.Trouble :=
  match setup.file with
  | none => (d, none)
  | some file =>
    match d.makeFolders file.path.parent with
    | (d, some trouble) => (d, some trouble)
    | (d, none) =>
      match d.at? file.path with
      | some (.file _) => (d, none)
      | _ =>
        match d.write file.path [] with
        | .ok d => (d, none)
        | .error trouble => (d, some trouble)

end Setup

end Cambio.Log
