import Cambio.Text.Half
import Cambio.Text.Printable

/-!
# Quoted text

A text as it is shown inside a message: between quotes, with every character that has no glyph
of its own written as an escape. The quote is an apostrophe, unless the text holds an apostrophe
and no double quote.

## Main definitions

- `hexDigits` — a number in a fixed count of small hexadecimal digits
- `escapeChar` — one character of a quoted text
- `quoted` — a text between quotes
-/

namespace Cambio.Text

/-- The small hexadecimal digit of a number below sixteen. -/
def hexDigit (n : Nat) : Char :=
  if n < 10 then Char.ofNat (0x30 + n) else Char.ofNat (0x57 + n)

/-- The last `width` hexadecimal digits of a number. -/
def hexDigits : Nat → Nat → List Char
  | 0, _ => []
  | width + 1, n => hexDigits width (n / 16) ++ [hexDigit (n % 16)]

/-- A character of a text quoted by `quote`. -/
def escapeChar (quote : Char) (c : Char) : List Char :=
  if c = quote || c = '\\' then ['\\', c]
  else if c = '\n' then ['\\', 'n']
  else if c = '\r' then ['\\', 'r']
  else if c = '\t' then ['\\', 't']
  else if isPrintable c then [c]
  else if c.toNat < 0x100 then '\\' :: 'x' :: hexDigits 2 c.toNat
  else
    let point := (half? c).getD c.toNat
    if point < 0x10000 then '\\' :: 'u' :: hexDigits 4 point
    else '\\' :: 'U' :: hexDigits 8 point

/-- The quote that surrounds a text: a double quote only around an apostrophe that would
    otherwise need an escape. -/
def quoteFor (s : List Char) : Char :=
  if '\'' ∈ s ∧ '"' ∉ s then '"' else '\''

/-- A text between quotes, its unprintable characters escaped. -/
def quoted (s : List Char) : List Char :=
  quoteFor s :: (s.flatMap (escapeChar (quoteFor s)) ++ [quoteFor s])

/-- A string between quotes, its unprintable characters escaped. -/
def quotedString (s : String) : String :=
  String.ofList (quoted s.toList)

end Cambio.Text
