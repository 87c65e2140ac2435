import Cambio.Json.Basic

/-!
# Writing JSON

A value is written on one line, or with one item or member a line and two blanks for each level.
What is escaped in a text, and the notation of floating-point numbers, are choices of the file
that is written.

## Main definitions

- `Json.Style` — the choices, and `Json.plain` and `Json.basic`
- `Json.write` — a value on one line
- `Json.writeIndented` — a value over several lines
- `Json.texts` — all texts that are written
-/

namespace Cambio.Json

/-- The choices of a written document. -/
structure Style where
  /-- The characters that need no escape. -/
  isPlain : Char → Bool
  /-- The notation of floating-point numbers. -/
  numbers : Binary64.Style

/-- Every character but the controls stands for itself. -/
def plain : Style where
  isPlain c := 0x20 ≤ c.toNat
  numbers := Binary64.compact

/-- Only the visible basic characters stand for themselves. -/
def basic : Style where
  isPlain c := 0x20 ≤ c.toNat && c.toNat < 0x7F
  numbers := Binary64.display

/-- The escape of a code unit. -/
def unitEscape (n : Nat) : List Char :=
  '\\' :: 'u' :: Text.hexDigits 4 n

/-- A character of a text between quotes. -/
def writeChar (style : Style) (c : Char) : List Char :=
  if c = '"' then ['\\', '"']
  else if c = '\\' then ['\\', '\\']
  else if c = '\n' then ['\\', 'n']
  else if c = '\r' then ['\\', 'r']
  else if c = '\t' then ['\\', 't']
  else if c.toNat = 0x08 then ['\\', 'b']
  else if c.toNat = 0x0C then ['\\', 'f']
  else if style.isPlain c then [c]
  else
    let point := (Text.half? c).getD c.toNat
    if point < 0x10000 then unitEscape point
    else
      let n := point - 0x10000
      unitEscape (0xD800 + n / 0x400) ++ unitEscape (0xDC00 + n % 0x400)

/-- A text between quotes. -/
def writeText (style : Style) (s : String) : List Char :=
  '"' :: (s.toList.flatMap (writeChar style) ++ ['"'])

/-- A value without items or members. -/
def writeScalar (style : Style) : Json → List Char
  | .null => "null".toList
  | .bool true => "true".toList
  | .bool false => "false".toList
  | .whole n => (toString n).toList
  | .decimal d => d.scientific
  | .binary x => x.write style.numbers
  | .text s => writeText style s
  | .list _ => ['[', ']']
  | .object _ => ['\x7b', '\x7d']

mutual

/-- A value on one line. -/
def write (style : Style) : Json → List Char
  | .list items => '[' :: (separated [','] (writeItems style items) ++ [']'])
  | .object members => '\x7b' :: (separated [','] (writeMembers style members) ++ ['\x7d'])
  | v => writeScalar style v

/-- The items of a list. -/
def writeItems (style : Style) : List Json → List (List Char)
  | [] => []
  | v :: rest => write style v :: writeItems style rest

/-- The members of an object. -/
def writeMembers (style : Style) : List (String × Json) → List (List Char)
  | [] => []
  | (name, v) :: rest => (writeText style name ++ ':' :: write style v) :: writeMembers style rest

end

/-- A new line at a level. -/
def newLine (level : Nat) : List Char :=
  '\n' :: List.replicate (2 * level) ' '

/-- Written parts between brackets, each on a line of its own; no parts leave nothing between the
    brackets. -/
def enclosed (opening closing : Char) (level : Nat) (parts : List (List Char)) : List Char :=
  match parts with
  | [] => [opening, closing]
  | parts =>
    opening :: newLine (level + 1) ++ separated (',' :: newLine (level + 1)) parts ++
      newLine level ++ [closing]

mutual

/-- A value over several lines, whose first line is at a level. -/
def writeAt (style : Style) (level : Nat) : Json → List Char
  | .list items => enclosed '[' ']' level (writeItemsAt style (level + 1) items)
  | .object members => enclosed '\x7b' '\x7d' level (writeMembersAt style (level + 1) members)
  | v => writeScalar style v

/-- The items of a list over several lines. -/
def writeItemsAt (style : Style) (level : Nat) : List Json → List (List Char)
  | [] => []
  | v :: rest => writeAt style level v :: writeItemsAt style level rest

/-- The members of an object over several lines. -/
def writeMembersAt (style : Style) (level : Nat) : List (String × Json) → List (List Char)
  | [] => []
  | (name, v) :: rest =>
    (writeText style name ++ ':' :: ' ' :: writeAt style level v) ::
      writeMembersAt style level rest

end

/-- A value over several lines. -/
def writeIndented (style : Style) (v : Json) : List Char :=
  writeAt style 0 v

mutual

/-- The texts of a value in the order in which they are written, those of names among them. -/
def texts : Json → List String
  | .text s => [s]
  | .list items => textsOfItems items
  | .object members => textsOfMembers members
  | _ => []

/-- The texts of the items of a list. -/
def textsOfItems : List Json → List String
  | [] => []
  | v :: rest => texts v ++ textsOfItems rest

/-- The texts of the members of an object. -/
def textsOfMembers : List (String × Json) → List String
  | [] => []
  | (name, v) :: rest => name :: (texts v ++ textsOfMembers rest)

end

end Cambio.Json
