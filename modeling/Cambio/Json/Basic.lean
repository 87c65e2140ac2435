import Cambio.Binary64.Notation
import Cambio.Entries
import Cambio.Text.Quoted

/-!
# JSON values

The values of a JSON document. A number written without point and power of ten is a whole
number of any size; another number is kept as an exact decimal or taken as the nearest binary
floating-point number, as the reader of the document chooses. Objects keep their members in
order, each name once.

## Main definitions

- `Json` — the values
- `Json.shown` — a value as it is shown inside a message
- `Json.isVoid` — a value that stands for nothing
-/

namespace Cambio

/-- The values of a JSON document. -/
inductive Json where
  | null
  | bool (b : Bool)
  | whole (n : Int)
  | decimal (d : Decimal)
  | binary (x : Binary64)
  | text (s : String)
  | list (items : List Json)
  | object (members : List (String × Json))
  deriving Repr

namespace Json

instance : Inhabited Json := ⟨.null⟩

/-- A value that may be missing. -/
def ofOption {α : Type} (f : α → Json) : Option α → Json
  | some a => f a
  | none => .null

/-- Texts with a separator between them. -/
def separated (separator : List Char) : List (List Char) → List Char
  | [] => []
  | [s] => s
  | s :: rest => s ++ separator ++ separated separator rest

mutual

/-- A value as it is shown inside a message: texts are quoted, and the names for nothing, yes
    and no are words. -/
def shown : Json → List Char
  | .null => "None".toList
  | .bool true => "True".toList
  | .bool false => "False".toList
  | .whole n => (toString n).toList
  | .decimal d => "Decimal('".toList ++ d.scientific ++ "')".toList
  | .binary x => x.write Binary64.display
  | .text s => Text.quoted s.toList
  | .list items => '[' :: (separated [',', ' '] (shownItems items) ++ [']'])
  | .object members => '\x7b' :: (separated [',', ' '] (shownMembers members) ++ ['\x7d'])

/-- The items of a list, each as it is shown inside a message. -/
def shownItems : List Json → List (List Char)
  | [] => []
  | v :: rest => shown v :: shownItems rest

/-- The members of an object, each as it is shown inside a message. -/
def shownMembers : List (String × Json) → List (List Char)
  | [] => []
  | (name, v) :: rest => (Text.quoted name.toList ++ [':', ' '] ++ shown v) :: shownMembers rest

end

/-- A value as a text: a text stands for itself, another value as it is shown. -/
def asText : Json → List Char
  | .text s => s.toList
  | v => shown v

/-- The name of the sort of a value, as messages about unusable values give it. -/
def sort : Json → String
  | .null => "NoneType"
  | .bool _ => "bool"
  | .whole _ => "int"
  | .decimal _ => "decimal.Decimal"
  | .binary _ => "float"
  | .text _ => "str"
  | .list _ => "list"
  | .object _ => "dict"

mutual

/-- A value in which every number that is not whole is the text of its digits. -/
def spelled : Json → Json
  | .binary x => .text x.text
  | .decimal d => .text d.text
  | .list items => .list (spelledItems items)
  | .object members => .object (spelledMembers members)
  | v => v

/-- Items in which every number that is not whole is a text. -/
def spelledItems : List Json → List Json
  | [] => []
  | v :: rest => spelled v :: spelledItems rest

/-- Members in which every number that is not whole is a text. -/
def spelledMembers : List (String × Json) → List (String × Json)
  | [] => []
  | (name, v) :: rest => (name, spelled v) :: spelledMembers rest

end

/-- A value that stands for nothing: nothing itself, no, zero and what has no parts. -/
def isVoid : Json → Bool
  | .null | .bool false => true
  | .whole n => n = 0
  | .binary x => x.isZero
  | .decimal d => d.isZero
  | .text s => s = ""
  | .list items => items.isEmpty
  | .object members => members.isEmpty
  | .bool true => false

end Json

end Cambio
