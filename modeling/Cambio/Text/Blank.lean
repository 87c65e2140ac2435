/-!
# Blank characters

The characters that separate words and may surround a number, and the two operations that
depend on them: trimming a text and cutting it into words.

## Main definitions

- `isBlank` — the white space of the Unicode bidirectional classes and separators
- `trim` — a text without the blanks at its two ends
- `words` — the longest runs of characters that are not blank
-/

namespace Cambio.Text

/-- A character is blank when it is a control that moves the cursor, an information
    separator, or a Unicode space, line or paragraph separator. -/
def isBlank (c : Char) : Bool :=
  let n := c.toNat
  (0x9 ≤ n && n ≤ 0xD) || (0x1C ≤ n && n ≤ 0x20) || n == 0x85 || n == 0xA0 || n == 0x1680 ||
    (0x2000 ≤ n && n ≤ 0x200A) || n == 0x2028 || n == 0x2029 || n == 0x202F || n == 0x205F ||
    n == 0x3000

/-- Drops the characters satisfying `p` from both ends. -/
def trimBy (p : Char → Bool) (s : List Char) : List Char :=
  ((s.dropWhile p).reverse.dropWhile p).reverse

/-- Drops the blanks at both ends. -/
def trim (s : List Char) : List Char :=
  trimBy isBlank s

/-- Drops the characters satisfying `p` from the end. -/
def trimEndBy (p : Char → Bool) (s : List Char) : List Char :=
  (s.reverse.dropWhile p).reverse

/-- Cuts a text at every character satisfying `p`; there is one more piece than cuts. -/
def splitBy (p : Char → Bool) : List Char → List (List Char)
  | [] => [[]]
  | c :: rest =>
    match splitBy p rest with
    | [] => [[c]]
    | piece :: pieces => if p c then [] :: piece :: pieces else (c :: piece) :: pieces

/-- The words of a text: its pieces between blanks that are not empty. -/
def words (s : List Char) : List (List Char) :=
  (splitBy isBlank s).filter (!·.isEmpty)

end Cambio.Text
