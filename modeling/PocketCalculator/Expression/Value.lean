import PocketCalculator.Binary64.Arithmetic
import PocketCalculator.Decimal.Reading
import PocketCalculator.Expression.Postfix

/-! # Expression: values

The value of tokens in postfix order is found on a stack of doubles: a number is pushed, an
operator takes the two values on top and pushes its result. One finite value has to be left. -/

namespace PocketCalculator

/-- The result of an operator; dividing by either zero is a failure. -/
def applyOperator (operator : String) (a b : Binary64) : Except Failure Binary64 :=
  if operator = "+" then .ok (a + b)
  else if operator = "-" then .ok (a - b)
  else if operator = "*" then .ok (a * b)
  else if operator = "/" then
    if b.isZero then .error .divisionByZero else .ok (a / b)
  else .error (.unknownOperator operator)

/-- One step over the stack of values, the last one first. -/
def stackStep (stack : List Binary64) (t : Token) : Except Failure (List Binary64) :=
  match t.kind with
  | .number =>
    match Binary64.ofText? t.text with
    | some x => .ok (x :: stack)
    | none => .error (.notANumber t.text)
  | .operator =>
    match stack with
    | b :: a :: rest => (· :: rest) <$> applyOperator t.text a b
    | _ => .error (.missingOperands t.text)
  | _ => .error (.unexpectedToken t.text)

/-- The value of tokens in postfix order. -/
def postfixValue (tokens : List Token) : Except Failure Binary64 := do
  match ← tokens.foldlM stackStep [] with
  | [value] => if value.isFinite then .ok value else .error (.notFinite value)
  | stack => .error (.leftOver stack.length)

/-- The tokens of a line; a line without tokens is a failure. -/
def tokenize (line : String) : Except Failure (List Token) :=
  match tokensOf line with
  | [] => .error (.noTokens line)
  | tokens => .ok tokens

/-- The value of a line. -/
def lineValue (line : String) : Except Failure Binary64 := do
  postfixValue (← toPostfix (← tokenize line))

end PocketCalculator
