import PocketCalculator.Decimal.Shortest
import PocketCalculator.Text.Quoted

/-! # Expression: causes of failure

`Failure` is why a line has no value. A cause that can lie in what was typed has a *kind*, by which
it is reported. The two causes without a kind say that a sequence of tokens was not made from a
line: an operator that has no precedence, a number whose text is none. -/

namespace PocketCalculator

/-- The kinds by which failed calculations are reported. -/
inductive FailureKind where
  | invalidExpression
  | unbalancedParentheses
  | malformedExpression
  | divisionByZero
  | unknownOperator
  | numericOverflow
  deriving DecidableEq, Repr

/-- The name of a kind in reports. -/
def FailureKind.name : FailureKind → String
  | invalidExpression => "invalid_expression"
  | unbalancedParentheses => "unbalanced_parentheses"
  | malformedExpression => "malformed_expression"
  | divisionByZero => "division_by_zero"
  | unknownOperator => "unknown_operator"
  | numericOverflow => "numeric_overflow"

/-- Why a line, or a sequence of tokens, has no value. -/
inductive Failure where
  /-- The line has no token. -/
  | noTokens (line : String)
  /-- A closing parenthesis stands without an opening one. -/
  | closingWithoutOpening
  /-- An opening parenthesis is not closed. -/
  | openingNeverClosed
  /-- An operator finds fewer than two operands. -/
  | missingOperands (operator : String)
  /-- The number of values left at the end is not one. -/
  | leftOver (values : Nat)
  /-- The right operand of a division is zero. -/
  | divisionByZero
  /-- A parenthesis stands among operands and operators in postfix order. -/
  | unexpectedToken (text : String)
  /-- The text of an operator is none of the four. -/
  | unknownOperator (text : String)
  /-- The value is infinite or not a number. -/
  | notFinite (value : Binary64)
  /-- Two operators are compared and one is none of the four. -/
  | noPrecedence (text : String)
  /-- The text of a number does not write one. -/
  | notANumber (text : String)
  deriving DecidableEq

namespace Failure

/-- The kind by which a failure is reported, if it is. -/
def kind? : Failure → Option FailureKind
  | noTokens _ => some .invalidExpression
  | closingWithoutOpening | openingNeverClosed => some .unbalancedParentheses
  | missingOperands _ | leftOver _ => some .malformedExpression
  | divisionByZero => some .divisionByZero
  | unexpectedToken _ | unknownOperator _ => some .unknownOperator
  | notFinite _ => some .numericOverflow
  | noPrecedence _ | notANumber _ => none

/-- The wording of a failure. -/
def message : Failure → String
  | noTokens line => s!"No tokens found in '{line}'"
  | closingWithoutOpening => "Closing parenthesis without opening"
  | openingNeverClosed => "Opening parenthesis never closed"
  | missingOperands operator => s!"Insufficient operands for '{operator}'"
  | leftOver values => s!"Stack has {values} values after evaluation, expected 1"
  | divisionByZero => "Division by zero"
  | unexpectedToken text => s!"Unexpected token in postfix sequence: {text}"
  | unknownOperator text => s!"Unknown operator: {text}"
  | notFinite value => "Result is not finite: " ++ value.text
  | noPrecedence text => text
  | notANumber text => "could not convert string to float: " ++ quoted text

end Failure

end PocketCalculator
