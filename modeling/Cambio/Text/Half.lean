/-!
# Halves of surrogate pairs

Some code points are only halves of a pair that stands for one character. A document may hold a
half alone all the same. A text keeps such a half as a character of the last private area, at a
fixed distance from the half.

## Main definitions

- `charOfPoint` — the character of a code point
- `half?` — the half that a character stands for
-/

namespace Cambio.Text

/-- The first code point of a half of a pair. -/
def firstHalf : Nat := 0xD800

/-- The last code point of a half of a pair. -/
def lastHalf : Nat := 0xDFFF

/-- The distance from a half of a pair to the character that is kept for it. -/
def halfDistance : Nat := 0x100000

/-- The character of a code point, or the one that is kept for a half of a pair. -/
def charOfPoint (n : Nat) : Char :=
  if firstHalf ≤ n ∧ n ≤ lastHalf then Char.ofNat (halfDistance + n) else Char.ofNat n

/-- The half of a pair that a character is kept for. -/
def half? (c : Char) : Option Nat :=
  if halfDistance + firstHalf ≤ c.toNat ∧ c.toNat ≤ halfDistance + lastHalf then
    some (c.toNat - halfDistance)
  else none

/-- A text with a half of a pair alone has no bytes. -/
def hasHalf (s : String) : Bool :=
  s.toList.any fun c => (half? c).isSome

end Cambio.Text
