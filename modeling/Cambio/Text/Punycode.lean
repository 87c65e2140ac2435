/-!
# Punycode

A text of any script in basic letters, digits and hyphens. The basic characters come first, with a
hyphen behind them. Then each other character, the smallest first, is told by the distance from
the one told before it: how many places of how many smaller characters lie between them. Distances
are written in base thirty-six, the lowest digit first. A digit below a threshold is the last one
of its distance, and the thresholds follow the size of the distances so far.

## Main definitions

- `Punycode.encode` — the basic form of a text
- `Punycode.decode?` — the text of a basic form
-/

namespace Cambio.Text.Punycode

/-! ## Digits -/

/-- The digit of a value below thirty-six: letters first, then digits. -/
def digit (value : Nat) : Char :=
  if value < 26 then Char.ofNat (0x61 + value) else Char.ofNat (0x16 + value)

/-- The value of a digit; a letter may be of either case. -/
def value? (c : Char) : Option Nat :=
  if 'a' ≤ c ∧ c ≤ 'z' then some (c.toNat - 0x61)
  else if 'A' ≤ c ∧ c ≤ 'Z' then some (c.toNat - 0x41)
  else if '0' ≤ c ∧ c ≤ '9' then some (c.toNat - 0x16)
  else none

/-- The digits in which distances are written. -/
def base : Nat := 36

/-- The threshold of the digit at a place; places go up by the base. -/
def threshold (bias place : Nat) : Nat :=
  max 1 (min 26 (place - bias))

/-- No digit is below the lowest threshold but zero. -/
theorem one_le_threshold (bias place : Nat) : 1 ≤ threshold bias place :=
  Nat.le_max_left ..

/-- Divides until the rest is small, and counts the divisions by the base. -/
def scaled (counted delta : Nat) : Nat :=
  if 455 < delta then scaled (counted + base) (delta / 35)
  else counted + base * delta / (delta + 38)
termination_by delta
decreasing_by exact Nat.div_lt_self (by omega) (by omega)

/-- The bias after a distance, when so many characters are told; the first distance weighs less. -/
def adapted (isFirst : Bool) (delta told : Nat) : Nat :=
  let delta := if isFirst then delta / 700 else delta / 2
  scaled 0 (delta + delta / told)

/-- The bias before any distance. -/
def firstBias : Nat := 72

/-- The first code point that is not basic. -/
def firstPoint : Nat := 0x80

/-! ## Encoding -/

/-- The digits of a distance. -/
def digits (bias place q : Nat) : List Char :=
  let t := threshold bias place
  if q < t then [digit q]
  else digit (t + (q - t) % (base - t)) :: digits bias (place + base) ((q - t) / (base - t))
termination_by q
decreasing_by
  have := one_le_threshold bias place
  exact Nat.lt_of_le_of_lt (Nat.div_le_self ..) (by omega)

/-- What is told so far: how many characters, the distance from the last one, the bias, and
    whether any distance was told. -/
structure Told where
  count : Nat
  delta : Nat
  bias : Nat
  isFirst : Bool
  output : List Char
  deriving Repr

/-- Walks past a character of the text while the characters with the code point `n` are told. -/
def Told.step (n : Nat) (t : Told) (c : Char) : Told :=
  if c.toNat < n then { t with delta := t.delta + 1 }
  else if c.toNat = n then
    { count := t.count + 1
      delta := 0
      bias := adapted t.isFirst t.delta (t.count + 1)
      isFirst := false
      output := t.output ++ digits t.bias base t.delta }
  else t

/-- Tells the characters with each of some code points, which ascend from `start`. -/
def tell (s : List Char) (start : Nat) (t : Told) : List Nat → Told
  | [] => t
  | n :: rest =>
    let t := { t with delta := t.delta + (n - start) * (t.count + 1) }
    let t := s.foldl (Told.step n) t
    tell s (n + 1) { t with delta := t.delta + 1 } rest

/-- A basic character. -/
def isBasic (c : Char) : Bool :=
  c.toNat < firstPoint

/-- The basic form of a text. -/
def encode (s : List Char) : List Char :=
  let basic := s.filter isBasic
  let points := ((s.filter (!isBasic ·)).map Char.toNat).mergeSort.eraseDups
  let told := tell s firstPoint ⟨basic.length, 0, firstBias, true, []⟩ points
  basic ++ (if basic = [] then [] else ['-']) ++ told.output

/-! ## Decoding -/

/-- What is read so far: the characters, the code point and the place of the last one told, the
    bias, and of the distance under way its start, its weight and its place. -/
structure Heard where
  output : List Char
  point : Nat
  position : Nat
  bias : Nat
  isFirst : Bool
  delta : Nat
  weight : Nat
  place : Nat
  deriving Repr

/-- Puts the character that a distance leads to into its place. -/
def Heard.put (h : Heard) (delta : Nat) : Heard :=
  let room := h.output.length + 1
  let i := h.position + delta
  let point := h.point + i / room
  { output := h.output.insertIdx (i % room) (Char.ofNat point)
    point := point
    position := i % room + 1
    bias := adapted h.isFirst delta room
    isFirst := false
    delta := 0
    weight := 1
    place := base }

/-- Reads the distances; the last one has to be complete. -/
def hear (h : Heard) : List Char → Option (List Char)
  | [] => if h.place = base then some h.output else none
  | c :: rest => do
    let d ← value? c
    let delta := h.delta + d * h.weight
    let t := threshold h.bias h.place
    if d < t then
      let h := h.put delta
      if h.point < 0x110000 then hear h rest else none
    else
      hear { h with delta := delta, weight := h.weight * (base - t), place := h.place + base } rest

/-- The text of a basic form; the last hyphen ends the basic characters. -/
def decode? (s : List Char) : Option (List Char) :=
  let tail := (s.reverse.takeWhile (· ≠ '-')).reverse
  let basic := s.take (s.length - tail.length - 1)
  hear ⟨basic, firstPoint, 0, firstBias, true, 0, 1, base⟩ tail

end Cambio.Text.Punycode
