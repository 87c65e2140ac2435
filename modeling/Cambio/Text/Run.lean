import Cambio.Text.Blank
import Cambio.Text.Encoding

/-!
# Runs of code points

A property of characters is given by the runs of code points that have it. A run is written as its
first and its last code point in base sixteen, with a step behind a slash where it is not one:
`61-7A`, `100-12E/2`. A run of one is written once.

## Main definitions

- `Run` — a first and a last code point, and the step between neighbours
- `Run.ofRows` — the runs of rows of text
- `Run.anyHolds` — whether one of some runs has a code point
-/

namespace Cambio.Text

/-- Code points from a first to a last one by a constant step. -/
structure Run where
  first : Nat
  last : Nat
  step : Nat
  deriving DecidableEq, Repr

namespace Run

/-- A run has a code point. -/
def holds (r : Run) (n : Nat) : Bool :=
  r.first ≤ n && n ≤ r.last && (n - r.first) % r.step == 0

/-- The number that digits of base sixteen denote. -/
def hexNumber (s : List Char) : Nat :=
  s.foldl (fun n c => n * 16 + (hexValue? c).getD 0) 0

/-- What stands before and after the first `mark`; after it there may be nothing. -/
def cut (mark : Char) (s : List Char) : List Char × List Char :=
  (s.takeWhile (· ≠ mark), (s.dropWhile (· ≠ mark)).drop 1)

/-- The run of a word. -/
def ofWord (s : List Char) : Run :=
  let (range, step) := cut '/' s
  let (first, last) := cut '-' range
  ⟨hexNumber first, hexNumber (if last = [] then first else last),
    if step = [] then 1 else hexNumber step⟩

/-- The runs of rows of words. -/
def ofRows (rows : List String) : List Run :=
  rows.flatMap fun row => (words row.toList).map ofWord

/-- One of some runs has a code point. -/
def anyHolds (runs : List Run) (n : Nat) : Bool :=
  runs.any fun r => r.holds n

end Run

end Cambio.Text
