import Cambio.Session.Basic
import Cambio.Text.Digit

/-!
# The console

A session is led by lines of text: keys of the keypad, words for the other keys and commands for
the currency panel. Each line is answered by the lines that show what it did.

## Main definitions

- `Console.Command` — what a line asks for
- `Console.Command.ofLine?` — the reading of a line
- `Console.course` — what a command does, told step by step
- `Console.run` — the session after a command, and the answer to it
- `Console.attempt` — the same, as far as lines can be written
- `Console.Transcript`, `Console.transcript` — the answers to a whole list of lines
-/

namespace Cambio.Console

/-! ## Reading lines -/

/-- What a line asks for. -/
inductive Command where
  | quit
  | help
  | exchange (amount fromCode toCode : List Char)
  /-- An exchange without all of its parts. -/
  | exchangeUsage
  | swap
  | send
  | panel
  | rates
  | key (key : Keypad.Key)
  | keys (text : List Char)
  deriving DecidableEq, Repr

/-- The words for keys. -/
def keyWords : List (String × Keypad.Key) := [
  ("c", .clear),
  ("clear", .clear),
  ("ce", .clearEntry),
  ("back", .backspace),
  ("neg", .sign),
  ("+/-", .sign)]

/-- The words for commands without parts. -/
def commandWords : List (String × Command) := [
  ("quit", .quit),
  ("exit", .quit),
  ("q", .quit),
  ("help", .help),
  ("swap", .swap),
  ("send", .send),
  ("panel", .panel),
  ("rates", .rates)]

/-- The command of a line, unless it is blank. The first word counts in any case. -/
def Command.ofLine? (line : List Char) : Option Command :=
  match Text.words line with
  | [] => none
  | first :: rest =>
    let word := String.ofList (Text.lower first)
    match commandWords.lookup word, keyWords.lookup word with
    | some command, _ => some command
    | none, some k => some (.key k)
    | none, none =>
      if word = "fx" then
        match rest with
        | [amount, fromCode, toCode] => some (.exchange amount fromCode toCode)
        | _ => some .exchangeUsage
      else some (.keys (first :: rest).flatten)

/-- The key of a character. -/
def keyOf? (c : Char) : Option Keypad.Key :=
  if Text.isDigit c then some (.digit [c])
  else if c = '.' then some .point
  else if c ∈ ['+', '-', '*', '/', '×', '÷'] then some (.operator [c])
  else if c = '=' then some .equals
  else if c = '%' then some .percent
  else none

/-! ## Answers -/

/-- The lines of an answer. -/
abbrev Answer := List (List Char)

/-- The lines that explain the commands. -/
def helpLines : Answer := [
  "Calculator keys:  0-9 .  + - * / × ÷  =  %".toList,
  "Words:            c (clear)  ce (clear entry)  back  neg (toggle sign)".toList,
  "Currency:         fx <amount> <FROM> <TO>  swap  send  panel  rates".toList,
  "Other:            help  quit".toList]

/-- The lines that show the keypad. -/
def keypadLines (k : Keypad) : Answer :=
  (if k.expression = [] then [] else [' ' :: ' ' :: k.expression]) ++
    ('=' :: ' ' :: k.display) ::
    (if k.hasError then [' ' :: ' ' :: '(' :: k.errorMessage.toList ++ [')']] else [])

/-- The lines that show the currency panel. -/
def panelLines (s : Session) : Answer :=
  [s.resultText, s.updatedText]

/-- The line that shows a rate table, with its codes in order. -/
def tableLine (base : String) (rates : RateTable) : List Char :=
  base.toList ++ ':' :: ' ' :: Json.separated [',', ' ']
    (rates.sorted.map fun (code, rate) => code.toList ++ '=' :: rate.scientific)

/-- The lines that show all rate tables, with their bases in order. -/
def rateLines (s : Session) : Answer :=
  (Entries.sorted s.converter.cache.book).map (fun (base, rates) => tableLine base rates) ++
    [s.updatedText]

/-- The line that shows a fault. -/
def faultLine (f : Converter.Fault) : List Char :=
  s!"Error: {f.kind.category.userMessage} ({f.message})".toList

/-! ## Commands -/

/-- Presses the keys of a text up to a character that is no key. -/
def pressKeys (s : Session) : List Char → Session × Answer
  | [] => (s, [])
  | c :: rest =>
    match keyOf? c with
    | some key => pressKeys (s.press key).1 rest
    | none => (s, ["Unknown key: ".toList ++ [c]])

/-- Converts, unless every change already does. -/
def convertIfNeeded (s : Session) : Session × List Session.Note :=
  if s.settings.display.isRealTime then (s, []) else s.convert

/-- What is shown at the end of a command. -/
inductive View where
  | lines (answer : Answer)
  /-- Some lines, and the currency panel. -/
  | panel (before : Answer)
  deriving DecidableEq, Repr

/-- The course of a command: the session after it, what the currency panel told meanwhile, and what
    is shown at the end. -/
structure Course where
  session : Session
  told : List Session.Note
  view : View
  deriving DecidableEq, Repr

/-- The lines that are shown at the end. -/
def Course.answer (c : Course) : Answer :=
  match c.view with
  | .lines answer => answer
  | .panel before => before ++ panelLines c.session

/-- Both currencies of a pair, if they are offered. -/
def pairOf (s : Session) (fromCode toCode : List Char) :
    Except Converter.Fault (Currency × Currency) := do
  let fromCurrency ← s.converter.currency (String.ofList fromCode)
  let toCurrency ← s.converter.currency (String.ofList toCode)
  return (fromCurrency, toCurrency)

/-- Selects a pair and an amount and converts. Both currencies have to be offered. -/
def Course.ofExchange (s : Session) (amount fromCode toCode : List Char) : Course :=
  match pairOf s fromCode toCode with
  | .error f => ⟨s, [], .lines [faultLine f]⟩
  | .ok (fromCurrency, toCurrency) =>
    let (s, first) := s.selectFrom (.currency fromCurrency)
    let (s, second) := s.selectTo (.currency toCurrency)
    let (s, third) := s.enterAmount (.ofText amount)
    let (s, last) := convertIfNeeded s
    ⟨s, first ++ second ++ third ++ last, .panel []⟩

/-- The course of each command. -/
def course (s : Session) : Command → Course
  | .quit => ⟨s, [], .lines []⟩
  | .help => ⟨s, [], .lines helpLines⟩
  | .exchange amount fromCode toCode => .ofExchange s amount fromCode toCode
  | .exchangeUsage => ⟨s, [], .lines ["Usage: fx <amount> <FROM> <TO>".toList]⟩
  | .swap =>
    let (s, first) := s.swap
    let (s, last) := convertIfNeeded s
    ⟨s, first ++ last, .panel []⟩
  | .send =>
    match s.send with
    | (true, s, told) => ⟨s, told, .panel []⟩
    | (false, s, told) => ⟨s, told, .lines ["Nothing to send".toList]⟩
  | .panel =>
    let (s, told) := s.togglePanel
    if s.panelShown then ⟨s, told, .panel ["Currency panel shown".toList]⟩
    else ⟨s, told, .lines ["Currency panel hidden".toList]⟩
  | .rates => ⟨s, [], .lines (rateLines s)⟩
  | .key key =>
    let s := (s.press key).1
    ⟨s, [], .lines (keypadLines s.keypad)⟩
  | .keys text =>
    let (s, unknown) := pressKeys s text
    ⟨s, [], .lines (unknown ++ keypadLines s.keypad)⟩

/-- The session after a command, and the answer to it. -/
def run (s : Session) (command : Command) : Session × Answer :=
  ((course s command).session, (course s command).answer)

/-- The session after an exchange, and the answer to it. -/
def exchange (s : Session) (amount fromCode toCode : List Char) : Session × Answer :=
  run s (.exchange amount fromCode toCode)

/-- What comes of a command: where it gets stuck, nothing of it follows. -/
structure Outcome where
  session : Session
  answer : Answer
  /-- A line that shows a conversion could not be written. -/
  isStuck : Bool
  deriving DecidableEq, Repr

/-- Follows the course of a command as far as lines can be written. -/
def attempt (s : Session) (command : Command) : Outcome :=
  let c := course s command
  match c.told.find? Session.Note.isStuck, c.view with
  | some note, _ => ⟨note.seen, [], true⟩
  | none, .lines answer => ⟨c.session, answer, false⟩
  | none, .panel before =>
    if c.session.isShowable then ⟨c.session, c.answer, false⟩
    else ⟨c.session, before, true⟩

/-! ## Whole runs -/

/-- The line at the start of a session. -/
def banner (s : Session) : List Char :=
  s!"{s.settings.application.name} - type 'help' for commands".toList

/-- How a run ended. -/
inductive End where
  | quit
  | endOfInput
  /-- A line could not be read or its answer not be written. -/
  | broken
  deriving DecidableEq, Repr

/-- The exit status of a run. -/
def End.status : End → Nat
  | .broken => 1
  | _ => 0

/-- What happened during a run. -/
structure Transcript where
  session : Session
  /-- The answers to the lines, without the one that ended the run. -/
  answers : List Answer
  /-- What the line that ended the run showed. -/
  last : Answer
  ending : End
  /-- The lines that were not read. -/
  unread : Nat
  deriving DecidableEq, Repr

/-- Answers lines until one of them asks to quit, cannot be read or gets stuck. -/
def transcript (s : Session) : List (Option (List Char)) → Transcript
  | [] => ⟨s, [], [], .endOfInput, 0⟩
  | none :: rest => ⟨s, [], [], .broken, rest.length⟩
  | some line :: rest =>
    match Command.ofLine? line with
    | some .quit => ⟨s, [], [], .quit, rest.length⟩
    | some command =>
      let o := attempt s command
      if o.isStuck then ⟨o.session, [], o.answer, .broken, rest.length⟩
      else
        let t := transcript o.session rest
        { t with answers := o.answer :: t.answers }
    | none =>
      let t := transcript s rest
      { t with answers := [] :: t.answers }

end Cambio.Console
