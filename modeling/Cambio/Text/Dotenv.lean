import Cambio.Entries
import Cambio.Text.Blank

/-!
# Files of variables

A file of variables has a name and a value on each line. A value may stand in quotes, within which
it may have line ends and escapes; without quotes it ends before a comment. Values may refer to
variables that were set before.

## Main definitions

- `Dotenv.read` — the variables of a file; a name without a value has none
- `Dotenv.expand` — puts the values of variables in place of references to them
-/

namespace Cambio.Dotenv

/-- The variables of a file, in order; a name without a value has none. -/
abbrev Variables := Entries (Option String)

/-- A blank within a line. -/
def isInnerBlank (c : Char) : Bool :=
  Text.isBlank c && c ≠ '\n' && c ≠ '\r'

/-- Line ends as single characters. -/
def joinLineEnds : List Char → List Char
  | '\r' :: '\n' :: rest => '\n' :: joinLineEnds rest
  | '\r' :: rest => '\n' :: joinLineEnds rest
  | c :: rest => c :: joinLineEnds rest
  | [] => []

/-! ## Quoted values -/

/-- The characters up to the closing quote, and the rest. A character after a backslash never
    closes. -/
def takeQuoted (quote : Char) : List Char → Option (List Char × List Char)
  | [] => none
  | '\\' :: c :: rest =>
    (takeQuoted quote rest).map fun (value, rest) => ('\\' :: c :: value, rest)
  | c :: rest =>
    if c = quote then some ([], rest)
    else (takeQuoted quote rest).map fun (value, rest) => (c :: value, rest)

/-- What an escaped letter stands for between double quotes. -/
def escaped? (c : Char) : Option Char :=
  match c with
  | '\\' | '\'' | '"' => some c
  | 'a' => some '\x07'
  | 'b' => some '\x08'
  | 'f' => some '\x0c'
  | 'n' => some '\n'
  | 'r' => some '\r'
  | 't' => some '\t'
  | 'v' => some '\x0b'
  | _ => none

/-- Between single quotes only quotes and backslashes are escaped. -/
def escapedPlain? (c : Char) : Option Char :=
  if c = '\\' ∨ c = '\'' then some c else none

/-- Puts what they stand for in place of escapes. -/
def unescape (meaning : Char → Option Char) : List Char → List Char
  | '\\' :: c :: rest =>
    match meaning c with
    | some d => d :: unescape meaning rest
    | none => '\\' :: unescape meaning (c :: rest)
  | c :: rest => c :: unescape meaning rest
  | [] => []

/-! ## Lines -/

/-- The part of a value without quotes before a comment, which follows a blank. -/
def beforeComment : List Char → List Char
  | a :: '#' :: rest => if Text.isBlank a then [] else a :: beforeComment ('#' :: rest)
  | a :: rest => a :: beforeComment rest
  | [] => []

/-- The value after an equals sign and the rest. -/
def takeValue (s : List Char) : Option (List Char × List Char) :=
  match s.dropWhile isInnerBlank with
  | '\'' :: rest => (takeQuoted '\'' rest).map fun (v, rest) => (unescape escapedPlain? v, rest)
  | '"' :: rest => (takeQuoted '"' rest).map fun (v, rest) => (unescape escaped? v, rest)
  | _ =>
    let line := s.takeWhile (· ≠ '\n')
    some (Text.trimBy Text.isBlank (beforeComment line), s.dropWhile (· ≠ '\n'))

/-- A character of a name without quotes. -/
def isNameChar (c : Char) : Bool :=
  c ≠ '=' && c ≠ '#' && !Text.isBlank c

/-- The word before a name that marks it for other programs is dropped. -/
def dropMark (s : List Char) : List Char :=
  let mark := "export".toList
  let rest := s.drop mark.length
  if s.take mark.length = mark ∧ rest.head?.any isInnerBlank then rest.dropWhile isInnerBlank
  else s

/-- The name at the start and the rest. -/
def takeName (s : List Char) : Option (List Char × List Char) :=
  match s with
  | '\'' :: rest =>
    let name := rest.takeWhile (· ≠ '\'')
    match rest.dropWhile (· ≠ '\'') with
    | _ :: rest => if name = [] then none else some (name, rest)
    | [] => none
  | s =>
    let name := s.takeWhile isNameChar
    if name = [] then none else some (name, s.dropWhile isNameChar)

/-- What follows a comment and the end of the line, if there is nothing else on the line. -/
def endLine (s : List Char) : Option (List Char) :=
  let rest := s.dropWhile isInnerBlank
  let rest := if rest.head? = some '#' then rest.dropWhile (· ≠ '\n') else rest
  match rest with
  | [] => some []
  | '\n' :: rest => some rest
  | _ => none

/-- What follows the end of the line. -/
def nextLine (s : List Char) : List Char :=
  (s.dropWhile (· ≠ '\n')).drop 1

/-- A variable as it is written. -/
structure Binding where
  name : String
  value : Option (List Char)

/-- A binding at the start of a line, and the rest; or the rest after a line that has none. -/
def readBinding (s : List Char) : Option Binding × List Char :=
  if s.head? = some '#' then (none, nextLine s)
  else
    match takeName (dropMark s) with
    | none => (none, nextLine (dropMark s))
    | some (name, rest) =>
      let name := String.ofList name
      match rest.dropWhile isInnerBlank with
      | '=' :: rest =>
        match takeValue rest with
        | none => (none, nextLine rest)
        | some (value, rest) =>
          match endLine rest with
          | some rest => (some ⟨name, some value⟩, rest)
          | none => (none, nextLine rest)
      | rest =>
        match endLine rest with
        | some rest => (some ⟨name, none⟩, rest)
        | none => (none, nextLine rest)

/-- The bindings of a file; every round takes at least a character. -/
def readBindings : Nat → List Char → List Binding
  | 0, _ => []
  | fuel + 1, s =>
    match s.dropWhile Text.isBlank with
    | [] => []
    | s =>
      let (binding, rest) := readBinding s
      binding.toList ++ readBindings fuel rest

/-! ## References -/

/-- A reference after a dollar sign: the name, what stands for a missing value, and the rest. -/
def takeReference (s : List Char) : Option (String × List Char × List Char) :=
  match s with
  | '\x7b' :: rest =>
    let name := rest.takeWhile fun c => c ≠ '\x7d' && c ≠ ':'
    match rest.dropWhile fun c => c ≠ '\x7d' && c ≠ ':' with
    | '\x7d' :: rest => some (String.ofList name, [], rest)
    | ':' :: '-' :: rest =>
      match rest.dropWhile (· ≠ '\x7d') with
      | _ :: after => some (String.ofList name, rest.takeWhile (· ≠ '\x7d'), after)
      | [] => none
    | _ => none
  | _ => none

/-- Puts the values of variables in place of references to them. -/
def expand (vars : Variables) : Nat → List Char → List Char
  | 0, s => s
  | _, [] => []
  | fuel + 1, '$' :: rest =>
    match takeReference rest with
    | some (name, otherwise, rest) =>
      let value :=
        match vars.get? name with
        | some value => (value.getD "").toList
        | none => otherwise
      value ++ expand vars fuel rest
    | none => '$' :: expand vars fuel rest
  | fuel + 1, c :: rest => c :: expand vars fuel rest

/-- Sets a variable; its value may refer to those before it and to those of the surroundings. -/
def bind (surroundings : Variables) (vars : Variables) (b : Binding) : Variables :=
  let known := Entries.putAll surroundings vars
  vars.put b.name (b.value.map fun v => String.ofList (expand known v.length v))

/-- The variables of a file. A byte order mark at its start does not count. -/
def read (surroundings : Variables) (s : List Char) : Variables :=
  let s := joinLineEnds (if s.head? = some '\uFEFF' then s.drop 1 else s)
  (readBindings (s.length + 1) s).foldl (bind surroundings) []

end Cambio.Dotenv
