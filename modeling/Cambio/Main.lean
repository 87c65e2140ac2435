import Std.Time.DateTime.Timestamp
import Cambio.Console
import Cambio.Settings.File

/-!
# The program

The console on standard input and output. The settings, the variables and the rates are read from
the working folder at the start, and what a line changed in files is written back after it. The
program has no way to the rate service, so rates come from the rate file, or are those that are
known from the start.

## Main definitions

- `Program.opened` — the session at the start
- `Program.serve` — answers lines until the end of input
- `main` — the program
-/

namespace Cambio.Program

/-- The names of variables for settings, in the usual case for variables and in lower case. -/
def variableNames : List String :=
  Settings.sections.flatMap fun (name, fields) =>
    (name :: fields.map fun field => s!"{name}__{field}").flatMap fun n => [n.toUpper, n]

/-- The variables of the process that may be settings. -/
def processVariables : IO Dotenv.Variables := do
  let found ← variableNames.mapM fun name => return (name, ← IO.getEnv name)
  return found.filter fun (_, value) => value.isSome

/-- The present moment. -/
def now : IO Moment := do
  let sinceEpoch := (← Std.Time.Timestamp.now).toNanosecondsSinceUnixEpoch.toInt / 1000
  let epoch : Date := ⟨1970, 1, 1⟩
  return (Moment.ofMicros? (epoch.dayNumber * Moment.microsPerDay + sinceEpoch)).getD .earliest

/-- Takes a file of the working folder into a disk, if there is one. -/
def fetched (d : Disk) (p : Path) : IO Disk := do
  match ← (IO.FS.readBinFile p.text).toBaseIO with
  | .ok bytes => return (d.writeDeep p bytes.toList).1
  | .error _ => return d

/-- Writes to the working folder what two disks differ in. -/
def writeBack (before after : Disk) : IO Unit :=
  after.nodes.reverse.forM fun (place, node) => do
    if before.node? place ≠ some node then
      let name := String.intercalate "/" place
      match node with
      | .folder => IO.FS.createDirAll name
      | .file bytes => IO.FS.writeBinFile name ⟨bytes.toArray⟩

/-- Goes on at the present moment. -/
def atPresent (s : Session) : IO Session := do
  let channel := { s.outside.channel with now := ← now }
  return { s with outside := { s.outside with channel := channel } }

/-- The session at the start, if its settings allow one. -/
def opened : IO (Option Session) := do
  let present := [Settings.variablesFile, Settings.fileName].map Path.ofText
  let found ← present.foldlM fetched .empty
  let (reading, d) := Settings.load (← processVariables) found (.ofText Settings.fileName)
  match reading.result with
  | .error _ => return none
  | .ok settings =>
    writeBack found d
    let d ← fetched d settings.rates.path
    match Session.ofSettings settings ⟨⟨← now, [], [], []⟩, d⟩ with
    | .error _ => return none
    | .ok s =>
      let (_, s) := s.warmedUp
      writeBack d s.outside.disk
      return some s

/-- Shows an answer. -/
def shown (output : IO.FS.Stream) (a : Console.Answer) : IO Unit :=
  a.forM fun line => output.putStrLn (String.ofList line)

/-- Answers lines until the end of input. -/
partial def serve (s : Session) (input output : IO.FS.Stream) : IO Console.End := do
  output.putStr "> "
  output.flush
  match ← input.getLine.toBaseIO with
  | .error _ => return .broken
  | .ok "" => return .endOfInput
  | .ok line =>
    match Console.Command.ofLine? line.toList with
    | some .quit => return .quit
    | some command =>
      let s ← atPresent s
      let outcome := Console.attempt s command
      shown output outcome.answer
      writeBack s.outside.disk outcome.session.outside.disk
      if outcome.isStuck then return .broken
      serve outcome.session input output
    | none => serve s input output

end Cambio.Program

/-- Runs the console and gives its exit status. -/
def main : IO UInt32 := do
  match ← Cambio.Program.opened with
  | none => return 1
  | some s =>
    let output ← IO.getStdout
    Cambio.Program.shown output [Cambio.Console.banner s]
    return (← Cambio.Program.serve s (← IO.getStdin) output).status.toUInt32
