/-!
# Properties of a session

Whoever shows a session is told which of its properties may have changed.

## Main definitions

- `Session.Property` — the properties of the keypad and of the currency panel
- `Session.keypadProperties`, `Session.resultProperties` — those that change together
-/

namespace Cambio.Session

/-- What a session shows. -/
inductive Property where
  | display
  | expression
  | keypadError
  | keypadMessage
  | panelShown
  | fromCurrency
  | toCurrency
  | amount
  | converted
  | result
  | updated
  | panelError
  /-- A conversion is under way. -/
  | busy
  deriving DecidableEq, Repr

/-- A property is one of the keypad or one of the currency panel. -/
def Property.isOfKeypad : Property → Bool
  | .display | .expression | .keypadError | .keypadMessage | .panelShown => true
  | _ => false

/-- The name of a property; both sides have one for an error. -/
def Property.name : Property → String
  | .display => "current_input"
  | .expression => "current_expression"
  | .keypadError | .panelError => "has_error"
  | .keypadMessage => "error_message"
  | .panelShown => "is_currency_panel_visible"
  | .fromCurrency => "from_currency"
  | .toCurrency => "to_currency"
  | .amount => "amount"
  | .converted => "converted_amount"
  | .result => "conversion_result"
  | .updated => "last_updated_text"
  | .busy => "is_busy"

/-- What is told after every key. -/
def keypadProperties : List Property :=
  [.display, .expression, .keypadError, .keypadMessage]

/-- What is told after every conversion. -/
def resultProperties : List Property :=
  [.converted, .result, .updated, .panelError]

end Cambio.Session
