import Cambio.Keypad.Number

/-!
# The keypad

A pocket calculator that evaluates strictly from left to right, two operands at a time. Its
display is a text under edit; a pending operation keeps its left operand as the text that was
shown. No key fails: a failure becomes the error state, from which every key but equals starts
afresh.

## Main definitions

- `Keypad` — the state: display, pending operation, last result, failure, and the memory that
  repeated equals uses
- `Keypad.Key`, `Keypad.press` — the keys and their effects
- `Keypad.pressAll` — the effect of a sequence of keys
- `Keypad.Status` — the four states that a user tells apart
-/

namespace Cambio

/-- What the last key was, as far as the next one depends on it. -/
inductive Keypad.Phase where
  /-- The display is under edit. -/
  | editing
  /-- An operator was just set; the next digit starts a new entry. -/
  | afterOperator
  /-- A result was just shown; the next digit starts a new entry. -/
  | afterEquals
  deriving DecidableEq, Repr

/-- An operation that waits for its right operand. -/
structure Keypad.Pending where
  /-- The left operand as it was shown. -/
  left : List Char
  operator : Keypad.Operator
  deriving DecidableEq, Repr

/-- The state of a calculator. -/
structure Keypad where
  /-- The text on display. -/
  display : List Char
  pending : Option Keypad.Pending
  /-- The last number that was computed or taken as an operand. -/
  result : Decimal
  /-- The failure on display, if there is one. -/
  failure : Option Keypad.Failure
  phase : Keypad.Phase
  /-- The operator that repeated equals applies. -/
  lastOperator : Option Keypad.Operator
  /-- The right operand that repeated equals applies. -/
  lastOperand : Decimal
  deriving DecidableEq, Repr

namespace Keypad

/-- The display of a calculator that was just switched on. -/
def blankDisplay : List Char := ['0']

/-- The display of the error state. -/
def errorDisplay : List Char := "Error".toList

/-- A calculator that was just switched on. -/
def fresh : Keypad where
  display := blankDisplay
  pending := none
  result := .zero
  failure := none
  phase := .editing
  lastOperator := none
  lastOperand := .zero

instance : Inhabited Keypad := ⟨fresh⟩

/-- The calculator shows a failure. -/
def hasError (k : Keypad) : Bool :=
  k.failure.isSome

/-- The wording of the failure on display; no failure has no words. -/
def errorMessage (k : Keypad) : String :=
  match k.failure with
  | some f => f.message
  | none => ""

/-- A pending operation as it is shown: the left operand, a space and the operator. -/
def Pending.text (p : Pending) : List Char :=
  p.left ++ [' ', p.operator.symbol]

/-- The pending operation as it is shown; none is an empty text. -/
def expression (k : Keypad) : List Char :=
  match k.pending with
  | some p => p.text
  | none => []

/-- The states that a user tells apart. -/
inductive Status where
  | normal
  | operatorPending
  | equalsPending
  | error
  deriving DecidableEq, Repr

/-- The written name of a state. -/
def Status.name : Status → String
  | .normal => "normal"
  | .operatorPending => "operator_pending"
  | .equalsPending => "equals_pending"
  | .error => "error"

/-- The state of a calculator as a user sees it. -/
def status (k : Keypad) : Status :=
  if k.hasError then .error
  else
    match k.phase with
    | .afterOperator => .operatorPending
    | .afterEquals => .equalsPending
    | .editing => .normal

/-- Shows a failure; everything but the display stays as it was. -/
def fail (k : Keypad) (f : Failure) : Keypad :=
  { k with failure := some f, display := errorDisplay }

/-- A failure is forgotten together with everything else. -/
def recovered (k : Keypad) : Keypad :=
  if k.hasError then fresh else k

/-- Puts a character after the display, or starts a new display with `start` after an operator
    or a result. -/
def enter (k : Keypad) (start continued : List Char) : Keypad :=
  match k.phase with
  | .editing => { k with display := continued }
  | _ => { k with phase := .editing, display := start }

/-- Presses a digit key. A leading zero is replaced. -/
def digit (k : Keypad) (text : List Char) : Keypad :=
  let k := k.recovered
  match text with
  | [c] =>
    if Text.isDigit c then
      k.enter [c] (if k.display = blankDisplay then [c] else k.display ++ [c])
    else k.fail (.invalidDigit (Text.quoted text))
  | _ => k.fail (.invalidDigit (Text.quoted text))

/-- Presses the point key; a second point is ignored. -/
def point (k : Keypad) : Keypad :=
  let k := k.recovered
  k.enter ['0', '.'] (if '.' ∈ k.display then k.display else k.display ++ ['.'])

/-- Shows a computed number. -/
def showResult (k : Keypad) (d : Decimal) : Keypad :=
  { k with result := d, display := formatNumber d }

/-- Repeats the remembered operation on the display. -/
def repeatEquals (k : Keypad) (operator : Operator) : Keypad :=
  match parseNumber k.display >>= fun x => apply operator x k.lastOperand with
  | .ok d => k.showResult d
  | .error f => k.fail f

/-- Takes the display as the result, with nothing to compute. -/
def takeDisplay (k : Keypad) : Keypad :=
  match parseNumber k.display with
  | .ok d => { k with result := d }
  | .error f => k.fail f

/-- Computes the pending operation with the display as right operand, which is remembered. -/
def complete (k : Keypad) (p : Pending) : Keypad :=
  match parseNumber p.left, parseNumber k.display with
  | .error f, _ => k.fail f
  | _, .error f => k.fail f
  | .ok left, .ok right =>
    let k := { k with lastOperand := right, lastOperator := some p.operator }
    match apply p.operator left right with
    | .error f => k.fail f
    | .ok d => { k.showResult d with pending := none, phase := .afterEquals }

/-- Presses the equals key. Pressed again it repeats the last operation on the display, which
    may have been edited meanwhile. -/
def equals (k : Keypad) : Keypad :=
  if k.hasError then k
  else
    match k.phase, k.lastOperator, k.pending with
    | .afterEquals, some operator, _ => k.repeatEquals operator
    | _, _, none => k.takeDisplay
    | _, _, some p => k.complete p

/-- Makes the display the left operand of a pending operation. -/
def await (k : Keypad) (symbol : List Char) : Keypad :=
  match Operator.ofSymbol? symbol with
  | none => k.fail (.unknownOperator symbol)
  | some operator =>
    match parseNumber k.display with
    | .error f => k.fail f
    | .ok left =>
      { k with
        pending := some ⟨formatNumber left, operator⟩
        result := left
        phase := .afterOperator
        lastOperator := some operator }

/-- Presses an operator key. A pending operation is computed first, unless its operator was
    pressed just before and is only replaced. -/
def operator (k : Keypad) (symbol : List Char) : Keypad :=
  let k := k.recovered
  if k.pending.isSome && k.phase != .afterOperator then
    let k := k.equals
    if k.hasError then k else k.await symbol
  else k.await symbol

/-- Presses the clear key. -/
def clear (_ : Keypad) : Keypad :=
  fresh

/-- Presses the clear entry key: a pending operation stays. -/
def clearEntry (k : Keypad) : Keypad :=
  if k.hasError then fresh else { k with display := blankDisplay, phase := .editing }

/-- Presses the backspace key; a result or a replaced display is not edited. -/
def backspace (k : Keypad) : Keypad :=
  if k.hasError then fresh
  else
    match k.phase with
    | .editing =>
      { k with display := if 1 < k.display.length then k.display.dropLast else blankDisplay }
    | _ => k

/-- Presses the sign key. -/
def sign (k : Keypad) : Keypad :=
  if k.hasError then fresh
  else if k.display = blankDisplay then k
  else
    match k.display with
    | '-' :: rest => { k with display := rest }
    | text => { k with display := '-' :: text }

/-- The number one hundred. -/
def hundred : Decimal := .ofNat 100

/-- The display as a percentage: of the left operand of a pending operation, or of one. -/
def percentage (k : Keypad) : Except Failure Decimal :=
  match parseNumber k.display with
  | .error f => .error f
  | .ok value =>
    let computed :=
      match k.pending with
      | none => (value.div hundred).mapError .percentage
      | some p =>
        match parseNumber p.left with
        | .error f => .error f
        | .ok left => (value.div hundred >>= left.mul).mapError .percentage
    computed

/-- Presses the percent key. -/
def percent (k : Keypad) : Keypad :=
  if k.hasError then fresh
  else
    match k.percentage with
    | .ok d => { k with display := formatNumber d }
    | .error f => k.fail f

/-- The keys. Digits and operators come as the text that was typed. -/
inductive Key where
  | digit (text : List Char)
  | point
  | operator (symbol : List Char)
  | equals
  | clear
  | clearEntry
  | backspace
  | sign
  | percent
  deriving DecidableEq, Repr

/-- The effect of a key. -/
def press (k : Keypad) : Key → Keypad
  | .digit text => k.digit text
  | .point => k.point
  | .operator symbol => k.operator symbol
  | .equals => k.equals
  | .clear => k.clear
  | .clearEntry => k.clearEntry
  | .backspace => k.backspace
  | .sign => k.sign
  | .percent => k.percent

/-- The effect of a sequence of keys. -/
def pressAll (k : Keypad) (keys : List Key) : Keypad :=
  keys.foldl press k

end Keypad

end Cambio
