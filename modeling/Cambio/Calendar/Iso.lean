import Cambio.Calendar.Moment
import Cambio.Decimal.Reader
import Cambio.Text.Half

/-!
# Reading moments

The standard written forms of a moment: a date in the calendar or in weeks, with hyphens or
without, and after any one character a time of day, with colons or without, and an offset from
universal time.

## Main definitions

- `Stamp` — what a written moment says: local fields and the offset, if it has one
- `Stamp.parse?` — the reading of a text
- `Stamp.isoText` — the usual written form
- `Stamp.moment?` — the moment in universal time
-/

namespace Cambio

/-- A written moment: the time on the clock there, and how far that clock is ahead. -/
structure Stamp where
  clock : Moment
  /-- Microseconds ahead of universal time; a moment without an offset is local. -/
  ahead : Option Int
  deriving DecidableEq, Repr

namespace Stamp

/-- The number of the first `n` characters, all digits, and the rest. -/
def takeNumber (n : Nat) (s : List Char) : Option (Nat × List Char) :=
  let ds := s.take n
  if ds.length = n ∧ ds.all Decimal.isBasicDigit then some (Decimal.digitsValue 0 ds, s.drop n)
  else none

/-- The place of the character after the date, told by hyphens, a week mark and digits. -/
def datePlaces (s : List Char) : Option Nat :=
  let at? (i : Nat) : Option Char := s[i]?
  let digitAt (i : Nat) : Bool := (at? i).any Decimal.isBasicDigit
  if s.length < 7 then none
  else if s.length = 7 then some 7
  else if at? 4 = some '-' then
    if at? 5 = some 'W' then
      if at? 8 = some '-' then
        if s.length = 9 then none
        else if digitAt 10 then some 8
        else some 10
      else some 8
    else some 10
  else if at? 4 = some 'W' then
    let run := ((s.drop 7).takeWhile Decimal.isBasicDigit).length + 7
    if run < 9 then some run else if run % 2 = 0 then some 7 else some 8
  else some 8

/-- The day number of the Monday of the first week of a year: the week of its first Thursday.
    The first Monday of the year one is day zero. -/
def firstMonday (year : Nat) : Int :=
  let first := Date.daysBefore year
  let weekday := Date.weekday first
  (first : Int) - weekday + (if 3 < weekday then 7 else 0)

/-- A year has a 53rd week when it starts on a Thursday, or on a Wednesday and is a leap
    year. -/
def hasLongYear (year : Nat) : Bool :=
  let weekday := Date.weekday (Date.daysBefore year)
  weekday == 3 || (weekday == 2 && Date.isLeap year)

/-- The date of a day of a week of a year. -/
def ofWeek? (year week day : Nat) : Option Date :=
  if 1 ≤ year ∧ 1 ≤ week ∧ (week ≤ 52 ∨ (week = 53 ∧ hasLongYear year)) ∧ 1 ≤ day ∧ day ≤ 7 then
    let n := firstMonday year + ((week : Int) - 1) * 7 + day - 1
    if 0 ≤ n ∧ n < Moment.dayLimit then some (Date.ofDayNumber n.toNat) else none
  else none

/-- The date that starts a text and is said to end at `places`. -/
def parseDate (places : Nat) (s : List Char) : Option Date := do
  let (year, rest) ← takeNumber 4 s
  let hyphens := rest.head? = some '-'
  let rest := if hyphens then rest.drop 1 else rest
  match rest with
  | 'W' :: rest =>
    let (week, rest) ← takeNumber 2 rest
    if s.length - rest.length < places then
      let rest ← if hyphens then (if rest.head? = some '-' then some (rest.drop 1) else none)
        else some rest
      let (day, _) ← takeNumber 1 rest
      ofWeek? year week day
    else ofWeek? year week 1
  | _ =>
    let (month, rest) ← takeNumber 2 rest
    let rest ← if hyphens then (if rest.head? = some '-' then some (rest.drop 1) else none)
      else some rest
    let (day, _) ← takeNumber 2 rest
    some ⟨year, month, day⟩

/-- A reading of a clock: the time of day, and whether the whole text was used. -/
structure ClockReading where
  time : Moment.TimeOfDay
  complete : Bool

/-- Nothing is left of a text, or a zero character comes next. What stands behind that does not
    count. -/
def isOver (s : List Char) : Bool :=
  s.head?.getD '\x00' = '\x00'

/-- The fraction of a second that a text starts with. Six digits count and further ones are
    dropped; a text of less than six characters is all digits. -/
def parseFraction (s : List Char) : Option (Nat × Bool) := do
  let n := min s.length 6
  let (value, rest) ← takeNumber n s
  if n = 0 then none
  else some (value * Nat.pow 10 (6 - n), isOver (rest.dropWhile Decimal.isBasicDigit))

/-- The two-digit fields of a clock after those read so far, as many as `fields`, and a fraction
    after the last of them. The separator after the first field says whether there are colons;
    a decimal mark starts the fraction early. One basic character may stand after a field. -/
def parseFields (fields : Nat) (colons : Option Bool) (read : List Nat) (s : List Char) :
    Option (List Nat × Nat × Bool) :=
  match fields with
  | 0 => (parseFraction s).map fun (micro, complete) => (read, micro, complete)
  | fields + 1 =>
    match takeNumber 2 s with
    | none => none
    | some (value, rest) =>
      let read := read ++ [value]
      match rest with
      | [] => some (read, 0, true)
      | [c] => if c.toNat < 0x80 then some (read, 0, isOver [c]) else none
      | c :: more =>
        let colons := colons.getD (c = ':')
        if colons ∧ c = ':' then parseFields fields (some colons) read more
        else if c = '.' ∨ c = ',' then parseFields 0 (some colons) read more
        else if ¬ colons then parseFields fields (some colons) read rest
        else none

/-- The clock that a text starts with: hours, minutes, seconds and a fraction. -/
def parseClock (s : List Char) : Option ClockReading :=
  (parseFields 3 none [] s).map fun (read, micro, complete) =>
    ⟨⟨read.getD 0 0, read.getD 1 0, read.getD 2 0, micro⟩, complete⟩

/-- An offset is a sign with a clock text, less than a day, or the letter Z. A fraction alone is
    no offset. -/
def parseOffset (s : List Char) : Option Int :=
  match s with
  | 'Z' :: rest => if isOver rest then some 0 else none
  | sign :: rest =>
    if sign = '+' ∨ sign = '-' then
      match parseClock rest with
      | some ⟨t, true⟩ =>
        if t.micros < Moment.microsPerDay then
          some (if t.micros < 1000000 then 0
            else if sign = '-' then -(t.micros : Int) else t.micros)
        else none
      | _ => none
    else none
  | [] => none

/-- A character that starts an offset. -/
def startsOffset (c : Char) : Bool :=
  c = '+' || c = '-' || c = 'Z'

/-- The places at which a date can end. -/
def dateEnds : List Nat := [7, 8, 10]

/-- A text of whole characters. A half of a pair counts as a letter at the first place after a
    date where there is one, and nowhere else. -/
def whole? (s : List Char) : Option (List Char) :=
  let isHalf (c : Char) : Bool := (Text.half? c).isSome
  let s :=
    match dateEnds.find? fun place => s[place]?.any isHalf with
    | some place => s.set place 'T'
    | none => s
  if s.any isHalf then none else some s

/-- The reading of a text. Before an offset one character more than the clock is let through. -/
def parse? (s : List Char) : Option Stamp := do
  let s ← whole? s
  let places ← datePlaces s
  let date ← parseDate places s
  match s.drop places with
  | [] => some ⟨← Moment.ofFields? date ⟨0, 0, 0, 0⟩, none⟩
  | _ :: rest =>
    let clock ← parseClock (rest.takeWhile (!startsOffset ·))
    match rest.dropWhile (!startsOffset ·) with
    | [] => if clock.complete then some ⟨← Moment.ofFields? date clock.time, none⟩ else none
    | offset => some ⟨← Moment.ofFields? date clock.time, some (← parseOffset offset)⟩

/-- Microseconds in a second. -/
def microsPerSecond : Nat := 1000000

/-- An offset as text: hours and minutes, and the finer parts that are not zero. -/
def offsetText (ahead : Int) : List Char :=
  let size := ahead.natAbs
  let seconds := size / microsPerSecond
  let fine := size % microsPerSecond
  let secondsText := ':' :: Moment.padded 2 (seconds % 60)
  (if ahead < 0 then '-' else '+') :: Moment.padded 2 (seconds / 3600) ++ ':' ::
    Moment.padded 2 (seconds / 60 % 60) ++
    (if fine ≠ 0 then secondsText ++ '.' :: Moment.padded 6 fine
      else if seconds % 60 ≠ 0 then secondsText
      else [])

/-- The stamp in its usual written form. -/
def isoText (s : Stamp) : List Char :=
  s.clock.isoText ++
    match s.ahead with
    | some ahead => offsetText ahead
    | none => []

/-- The moment in universal time, unless it falls out of the years one to 9999. -/
def moment? (s : Stamp) : Option Moment :=
  match s.ahead with
  | none => some s.clock
  | some ahead => Moment.ofMicros? (s.clock.micros - ahead)

end Stamp

end Cambio
