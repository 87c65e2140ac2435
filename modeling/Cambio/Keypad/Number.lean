import Cambio.Decimal.Arithmetic
import Cambio.Decimal.Reader
import Cambio.Decimal.Printer
import Cambio.Fault.Kind
import Cambio.Text.Quoted

/-!
# Numbers and operators of the keypad

Displays are read as finite decimals, results are written in positional notation, and four
operations are offered under six symbols.

## Main definitions

- `Keypad.Failure` — the causes of a failed entry or calculation
- `Keypad.Entry`, `Keypad.readNumber` — what a number may be read from, and its reading
- `Keypad.Operator`, `Keypad.apply` — the operator keys and what they compute
-/

namespace Cambio.Keypad

/-- The causes of a failed entry or calculation. -/
inductive Failure where
  /-- A text, shown as in a message, is no finite number. -/
  | invalidNumber (shown : List Char)
  /-- A key, shown as in a message, is no digit. -/
  | invalidDigit (shown : List Char)
  /-- A symbol is no operator. -/
  | unknownOperator (symbol : List Char)
  | divisionByZero
  /-- An operation has no result. -/
  | arithmetic (signal : Decimal.Signal)
  /-- A percentage has no result. -/
  | percentage (signal : Decimal.Signal)
  deriving DecidableEq, Repr

namespace Failure

/-- The wording of a failure. -/
def message : Failure → String
  | .invalidNumber shown => "Invalid number: " ++ String.ofList shown
  | .invalidDigit shown => "Invalid digit: " ++ String.ofList shown
  | .unknownOperator symbol => "Unknown operator: " ++ String.ofList symbol
  | .divisionByZero => "Division by zero"
  | .arithmetic signal => "Arithmetic error: " ++ signal.message
  | .percentage signal => "Percentage error: " ++ signal.message

/-- The kind of fault that a failure is. -/
def kind : Failure → Fault.Kind
  | .invalidNumber _ | .invalidDigit _ => .invalidInput
  | .unknownOperator _ => .unknownOperator
  | .divisionByZero => .divisionByZero
  | .arithmetic _ | .percentage _ => .calculation

end Failure

/-- What a number may be read from: a text, a whole number, or nothing. -/
inductive Entry where
  | text (s : List Char)
  | whole (n : Int)
  | absent
  deriving DecidableEq, Repr

/-- The finite decimal of a text. -/
def parseNumber (s : List Char) : Except Failure Decimal :=
  match Decimal.parse s with
  | .ok d => if d.isFinite then .ok d else .error (.invalidNumber (Text.quoted s))
  | .error _ => .error (.invalidNumber (Text.quoted s))

/-- The finite decimal of an entry. -/
def readNumber : Entry → Except Failure Decimal
  | .text s => parseNumber s
  | .whole n => .ok (.ofInt n)
  | .absent => .error (.invalidNumber "None".toList)

/-- A decimal as the display shows it: positional notation with all its digits. -/
def formatNumber (d : Decimal) : List Char :=
  d.fixed

/-- The operator keys; two of the operations have two symbols each. -/
inductive Operator where
  | plus
  | minus
  | asterisk
  | times
  | slash
  | obelus
  deriving DecidableEq, Repr

namespace Operator

/-- All operator keys. -/
def all : List Operator := [.plus, .minus, .asterisk, .times, .slash, .obelus]

/-- The symbol on an operator key. -/
def symbol : Operator → Char
  | .plus => '+'
  | .minus => '-'
  | .asterisk => '*'
  | .times => '×'
  | .slash => '/'
  | .obelus => '÷'

/-- The operator key with a symbol. -/
def ofSymbol? (s : List Char) : Option Operator :=
  all.find? fun o => s = [o.symbol]

/-- An operator key divides. -/
def isDivision : Operator → Bool
  | .slash | .obelus => true
  | _ => false

/-- The operation behind an operator key, at the working precision. -/
def compute : Operator → Decimal → Decimal → Except Decimal.Signal Decimal
  | .plus => Decimal.add
  | .minus => Decimal.sub
  | .asterisk | .times => Decimal.mul
  | .slash | .obelus => Decimal.div

end Operator

/-- Applies an operator key. A division by zero is a cause of its own; a divisor that signals
    cannot be compared with zero. -/
def apply (operator : Operator) (left right : Decimal) : Except Failure Decimal :=
  if operator.isDivision && right.isSignaling then .error (.arithmetic .invalidOperation)
  else if operator.isDivision && right.isZero then .error .divisionByZero
  else
    match operator.compute left right with
    | .ok d => .ok d
    | .error signal => .error (.arithmetic signal)

/-- Applies the operator with a symbol. -/
def applySymbol (symbol : List Char) (left right : Decimal) : Except Failure Decimal :=
  match Operator.ofSymbol? symbol with
  | some operator => apply operator left right
  | none => .error (.unknownOperator symbol)

end Cambio.Keypad
