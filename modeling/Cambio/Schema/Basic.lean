/-!
# Checking records

A record is checked field by field, and everything that is wrong with it is reported at once, in
the order of the fields. An issue says where it is and what is wrong there.

## Main definitions

- `Schema.Cause` — what may be wrong with a value, with its tag and its wording
- `Schema.Issue` — a cause with the path to the value
- `Checked` — a checked value or its issues; the applicative style collects the issues of all
  parts
- `Schema.Report` — the issues of a whole record under its title
-/

namespace Cambio

namespace Schema

/-- What may be wrong with a value. -/
inductive Cause where
  | missing
  | textExpected
  /-- A text with half of a pair of code units alone. -/
  | textBroken
  | wholeExpected
  | wholeUnreadable
  | wholeTooLarge
  | wholeFraction
  | numberExpected
  | numberUnreadable
  | finiteExpected
  | decimalExpected
  | decimalUnreadable
  | yesNoExpected
  | yesNoUnreadable
  | tableExpected
  | recordExpected (title : String)
  | belowBound (bound : Nat)
  | aboveBound (bound : Nat)
  | patternMismatch (pattern : String)
  /-- A rule beyond the form of the value refused it. -/
  | refused (message : String)
  deriving DecidableEq, Repr

namespace Cause

/-- The tag of a cause. -/
def tag : Cause → String
  | .missing => "missing"
  | .textExpected => "string_type"
  | .textBroken => "string_unicode"
  | .wholeExpected => "int_type"
  | .wholeUnreadable => "int_parsing"
  | .wholeTooLarge => "int_parsing_size"
  | .wholeFraction => "int_from_float"
  | .numberExpected => "float_type"
  | .numberUnreadable => "float_parsing"
  | .finiteExpected => "finite_number"
  | .decimalExpected => "decimal_type"
  | .decimalUnreadable => "decimal_parsing"
  | .yesNoExpected => "bool_type"
  | .yesNoUnreadable => "bool_parsing"
  | .tableExpected => "dict_type"
  | .recordExpected _ => "model_type"
  | .belowBound _ => "greater_than_equal"
  | .aboveBound _ => "less_than_equal"
  | .patternMismatch _ => "string_pattern_mismatch"
  | .refused _ => "value_error"

/-- The wording of a cause. -/
def message : Cause → String
  | .missing => "Field required"
  | .textExpected => "Input should be a valid string"
  | .textBroken => "Input should be a valid string, unable to parse raw data as a unicode string"
  | .wholeExpected => "Input should be a valid integer"
  | .wholeUnreadable =>
    "Input should be a valid integer, unable to parse string as an integer"
  | .wholeTooLarge => "Unable to parse input string as an integer, exceeded maximum size"
  | .wholeFraction => "Input should be a valid integer, got a number with a fractional part"
  | .numberExpected => "Input should be a valid number"
  | .numberUnreadable => "Input should be a valid number, unable to parse string as a number"
  | .finiteExpected => "Input should be a finite number"
  | .decimalExpected => "Decimal input should be an integer, float, string or Decimal object"
  | .decimalUnreadable => "Input should be a valid decimal"
  | .yesNoExpected => "Input should be a valid boolean"
  | .yesNoUnreadable => "Input should be a valid boolean, unable to interpret input"
  | .tableExpected => "Input should be a valid dictionary"
  | .recordExpected title => s!"Input should be a valid dictionary or instance of {title}"
  | .belowBound bound => s!"Input should be greater than or equal to {bound}"
  | .aboveBound bound => s!"Input should be less than or equal to {bound}"
  | .patternMismatch pattern => s!"String should match pattern '{pattern}'"
  | .refused message => s!"Value error, {message}"

end Cause

/-- What is wrong with a value, and the names that lead to it. -/
structure Issue where
  path : List String
  cause : Cause
  deriving DecidableEq, Repr

/-- The issues of a record under its title. -/
structure Report where
  title : String
  issues : List Issue
  deriving DecidableEq, Repr

/-- The first line of a report counts the issues. -/
def Report.headline (r : Report) : String :=
  let plural := if r.issues.length = 1 then "" else "s"
  s!"{r.issues.length} validation error{plural} for {r.title}"

end Schema

/-- A value that was checked, or everything that is wrong with it. -/
inductive Checked (α : Type) where
  | valid (value : α)
  | invalid (issues : List Schema.Issue)
  deriving Repr

namespace Checked

open Schema

variable {α β : Type}

/-- Changes a checked value. -/
def map (f : α → β) : Checked α → Checked β
  | .valid a => .valid (f a)
  | .invalid issues => .invalid issues

/-- Applies a checked function to a checked value; the issues of both are kept in order. -/
def apply (f : Checked (α → β)) (a : Checked α) : Checked β :=
  match f, a with
  | .valid f, .valid a => .valid (f a)
  | .valid _, .invalid issues => .invalid issues
  | .invalid issues, .valid _ => .invalid issues
  | .invalid first, .invalid second => .invalid (first ++ second)

instance : Functor Checked where
  map := map

instance : Seq Checked where
  seq f a := apply f (a ())

/-- A value that is wrong for one cause. -/
def fault (cause : Cause) : Checked α :=
  .invalid [⟨[], cause⟩]

/-- A further check of a value that passed the checks before. -/
def andThen (a : Checked α) (check : α → Checked β) : Checked β :=
  match a with
  | .valid a => check a
  | .invalid issues => .invalid issues

/-- The issues of a part, with the name that leads to it. -/
def under (name : String) : Checked α → Checked α
  | .valid a => .valid a
  | .invalid issues => .invalid (issues.map fun i => { i with path := name :: i.path })

/-- A check that may refuse a value with a message. -/
def ofRule : Except String α → Checked α
  | .ok a => .valid a
  | .error message => fault (.refused message)

/-- The checked value, or the report of its record. -/
def toExcept (title : String) : Checked α → Except Report α
  | .valid a => .ok a
  | .invalid issues => .error ⟨title, issues⟩

/-- Checks every entry of a table under its name. -/
def entries (check : String → α → Checked β) : List (String × α) → Checked (List (String × β))
  | [] => .valid []
  | (name, a) :: rest =>
    apply (map (fun b rest => (name, b) :: rest) (under name (check name a))) (entries check rest)

end Checked

end Cambio
