import Cambio.Binary64.Arithmetic
import Cambio.Decimal.Printer

/-!
# Moments

A moment is a point of local time, counted in microseconds from the start of the year one of the
Gregorian calendar, and belongs to the years one to 9999. The zone of local time is universal
time.

## Main definitions

- `Date`, `Date.dayNumber`, `Date.ofDayNumber` — calendar dates and their count of days
- `Moment` — a point of time, `Moment.ofFields?` and `Moment.fields` its parts
- `Moment.isoText`, `Moment.spacedText`, `Moment.minuteText` — the written forms
- `Moment.afterSeconds` — the moment a number of seconds later
-/

namespace Cambio

/-- A date of the Gregorian calendar. -/
structure Date where
  year : Nat
  month : Nat
  day : Nat
  deriving DecidableEq, Repr

namespace Date

/-- A year has a 29th of February. -/
def isLeap (year : Nat) : Bool :=
  year % 4 == 0 && (year % 100 != 0 || year % 400 == 0)

/-- The lengths of the months of a year. -/
def monthLengths (year : Nat) : List Nat :=
  [31, if isLeap year then 29 else 28, 31, 30, 31, 30, 31, 31, 30, 31, 30, 31]

/-- The count of days of a month. -/
def monthLength (year month : Nat) : Nat :=
  (monthLengths year).getD (month - 1) 0

/-- The count of days before the first of January of a year. -/
def daysBefore (year : Nat) : Nat :=
  let y := year - 1
  y * 365 + y / 4 - y / 100 + y / 400

/-- A date exists, in the years one to 9999. -/
def isValid (d : Date) : Bool :=
  1 ≤ d.year && d.year ≤ 9999 && 1 ≤ d.month && d.month ≤ 12 && 1 ≤ d.day &&
    d.day ≤ monthLength d.year d.month

/-- The count of days from the first day of the year one to a date. -/
def dayNumber (d : Date) : Nat :=
  daysBefore d.year + ((monthLengths d.year).take (d.month - 1)).foldl (· + ·) 0 + (d.day - 1)

/-- The month and the day of a day of the year, counted from zero. -/
def monthAndDay : List Nat → Nat → Nat → Nat × Nat
  | [], month, rest => (month, rest + 1)
  | n :: more, month, rest =>
    if rest < n then (month, rest + 1) else monthAndDay more (month + 1) (rest - n)

/-- The date of a count of days: whole cycles of 400, 100, 4 and 1 years are taken off, and the
    last day of a cycle belongs to its last year. -/
def ofDayNumber (n : Nat) : Date :=
  let centuries := min (n % 146097 / 36524) 3
  let inCentury := n % 146097 - centuries * 36524
  let years := min (inCentury % 1461 / 365) 3
  let year := n / 146097 * 400 + centuries * 100 + inCentury / 1461 * 4 + years + 1
  let (month, day) := monthAndDay (monthLengths year) 1 (inCentury % 1461 - years * 365)
  ⟨year, month, day⟩

/-- The day of the week of a day number, Monday being zero. -/
def weekday (dayNumber : Nat) : Nat :=
  dayNumber % 7

end Date

/-- A point of local time, in microseconds from the start of the year one. -/
structure Moment where
  micros : Nat
  deriving DecidableEq, Repr

namespace Moment

instance : Inhabited Moment := ⟨⟨0⟩⟩

/-- The microseconds of a day. -/
def microsPerDay : Nat := 86400000000

/-- The count of days of the years one to 9999. -/
def dayLimit : Nat := 3652059

/-- The earliest moment. -/
def earliest : Moment := ⟨0⟩

/-- A count of microseconds is a moment of the years one to 9999. -/
def ofMicros? (n : Int) : Option Moment :=
  if 0 ≤ n ∧ n < dayLimit * microsPerDay then some ⟨n.toNat⟩ else none

/-- A time of day. -/
structure TimeOfDay where
  hour : Nat
  minute : Nat
  second : Nat
  micro : Nat
  deriving DecidableEq, Repr

/-- The microseconds from midnight to a time of day. -/
def TimeOfDay.micros (t : TimeOfDay) : Nat :=
  ((t.hour * 60 + t.minute) * 60 + t.second) * 1000000 + t.micro

/-- A time of day exists; a day has no 24th hour. -/
def TimeOfDay.isValid (t : TimeOfDay) : Bool :=
  t.hour < 24 && t.minute < 60 && t.second < 60 && t.micro < 1000000

/-- The moment of a date and a time of day, if both exist. -/
def ofFields? (d : Date) (t : TimeOfDay) : Option Moment :=
  if d.isValid && t.isValid then some ⟨d.dayNumber * microsPerDay + t.micros⟩ else none

/-- The date and the time of day of a moment. -/
def fields (m : Moment) : Date × TimeOfDay :=
  let rest := m.micros % microsPerDay
  (Date.ofDayNumber (m.micros / microsPerDay),
    ⟨rest / 3600000000, rest / 60000000 % 60, rest / 1000000 % 60, rest % 1000000⟩)

/-- The last `width` decimal digits of a number. -/
def padded (width n : Nat) : List Char :=
  let ds := Decimal.digits n
  List.replicate (width - ds.length) '0' ++ ds

/-- A date with hyphens. -/
def dateText (d : Date) : List Char :=
  padded 4 d.year ++ '-' :: padded 2 d.month ++ '-' :: padded 2 d.day

/-- A time of day with colons; a fraction is written with six digits, and only if there is
    one. -/
def timeText (t : TimeOfDay) : List Char :=
  padded 2 t.hour ++ ':' :: padded 2 t.minute ++ ':' :: padded 2 t.second ++
    (if t.micro = 0 then [] else '.' :: padded 6 t.micro)

/-- Date and time of day with a character between them. -/
def separatedText (separator : Char) (m : Moment) : List Char :=
  dateText m.fields.1 ++ separator :: timeText m.fields.2

/-- The standard form of a moment. -/
def isoText (m : Moment) : List Char :=
  separatedText 'T' m

/-- A moment with a space between date and time of day. -/
def spacedText (m : Moment) : List Char :=
  separatedText ' ' m

/-- A moment to the minute. The year is not padded. -/
def minuteText (m : Moment) : List Char :=
  let (d, t) := m.fields
  Decimal.digits d.year ++ '-' :: padded 2 d.month ++ '-' :: padded 2 d.day ++ ' ' ::
    padded 2 t.hour ++ ':' :: padded 2 t.minute

/-- The microseconds from one moment to a later one; negative if it is earlier. -/
def microsSince (later earlier : Moment) : Int :=
  (later.micros : Int) - earlier.micros

/-- The seconds from one moment to another. -/
def secondsSince (later earlier : Moment) : Binary64 :=
  Binary64.ratioOf (later.microsSince earlier) 1000000

/-- The microseconds of a number of seconds: whole seconds exactly, and the fraction, brought to
    microseconds, rounded to the nearest, a half so that the sum is even. -/
def microsOfSeconds (x : Binary64) : Int :=
  match x with
  | .finite negative m e =>
    let (top, bottom) := Binary64.ratio m e
    let whole := top / bottom * 1000000
    let fraction := Binary64.ofRatio false (top % bottom) bottom
    let (n, d) := (fraction.mul (.ofNat 1000000)).magnitude
    let total := whole + halfEven n d
    if negative then -(total : Int) else total
  | _ => 0

/-- The moment a number of seconds later; out of range there is no other moment. -/
def afterSeconds (m : Moment) (x : Binary64) : Moment :=
  (ofMicros? (m.micros + microsOfSeconds x)).getD m

end Moment

end Cambio
