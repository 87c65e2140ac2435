import Cambio.Text.Encoding
import Cambio.Text.Quoted

/-!
# The bytes of a text

A text has bytes unless it holds a half of a surrogate pair alone.

## Main definitions

- `Unwritable` — why a text has no bytes
- `bytes?` — the bytes of a text
-/

namespace Cambio.Text

/-- The first halves in a row that a text holds, and how many characters stand before them. -/
structure Unwritable where
  position : Nat
  halves : List Nat
  deriving DecidableEq, Repr

/-- The wording of why a text has no bytes. -/
def Unwritable.message (u : Unwritable) : String :=
  let place :=
    match u.halves with
    | [half] => s!"character '\\u{String.ofList (hexDigits 4 half)}' in position {u.position}"
    | halves => s!"characters in position {u.position}-{u.position + halves.length - 1}"
  s!"'utf-8' codec can't encode {place}: surrogates not allowed"

/-- The first halves in a row that a text holds. -/
def unwritable? (s : List Char) : Option Unwritable :=
  let isWhole (c : Char) : Bool := (half? c).isNone
  match s.dropWhile isWhole with
  | [] => none
  | broken =>
    some ⟨(s.takeWhile isWhole).length, (broken.takeWhile (!isWhole ·)).filterMap half?⟩

/-- The bytes of a text. -/
def bytes? (s : List Char) : Except Unwritable (List UInt8) :=
  match unwritable? s with
  | some u => .error u
  | none => .ok (encodeUtf8 s)

end Cambio.Text
