import PocketCalculator.Expression.Token
import PocketCalculator.Expression.Failure

/-! # Expression: postfix order

`toPostfix` puts operators behind their operands. Waiting operators and open parentheses are kept
on a stack. An operator lets those on top of the stack go first that bind at least as tightly, so
that operators of one precedence group to the left.

* `releaseTighter`: the operators on top of the stack that go before a new one.
* `arrange`: the tokens still to come in postfix order, given the stack. -/

namespace PocketCalculator

/-- How tightly an operator binds. -/
def precedence? (operator : String) : Option Nat :=
  if operator = "*" ∨ operator = "/" then some 2
  else if operator = "+" ∨ operator = "-" then some 1
  else none

/-- How tightly an operator binds, or the failure that it is none of the four. -/
def precedence (operator : String) : Except Failure Nat :=
  match precedence? operator with
  | some p => .ok p
  | none => .error (.noPrecedence operator)

/-- The operators on top of the stack that bind at least as tightly as a new one, and the rest of
the stack. -/
def releaseTighter (operator : Token) : List Token → Except Failure (List Token × List Token)
  | [] => .ok ([], [])
  | top :: stack =>
    if top.isOperator then do
      let p ← precedence top.text
      let q ← precedence operator.text
      if q ≤ p then
        let (released, rest) ← releaseTighter operator stack
        .ok (top :: released, rest)
      else .ok ([], top :: stack)
    else .ok ([], top :: stack)

/-- The released operators and the rest make up the stack. -/
theorem append_of_releaseTighter {operator : Token} {stack released rest : List Token}
    (h : releaseTighter operator stack = .ok (released, rest)) : released ++ rest = stack := by
  induction stack generalizing released with
  | nil => cases h; rfl
  | cons top stack ih =>
    unfold releaseTighter at h
    split at h
    · cases hp : precedence top.text with
      | error => rw [hp] at h; cases h
      | ok p =>
        cases hq : precedence operator.text with
        | error => rw [hp, hq] at h; cases h
        | ok q =>
          rw [hp, hq] at h
          simp only [bind, Except.bind] at h
          split at h
          · cases hr : releaseTighter operator stack with
            | error => rw [hr] at h; cases h
            | ok pair =>
              rw [hr] at h
              cases h
              rw [List.cons_append, ih hr]
          · cases h; rfl
    · cases h; rfl

/-- Whether a token is not an opening parenthesis. -/
def Token.isInner (t : Token) : Bool := t.kind ≠ .leftParen

/-- The tokens of a line from here on in postfix order, given the stack of waiting operators and
open parentheses, the last one first. -/
def arrange : List Token → List Token → Except Failure (List Token)
  | stack, [] =>
    if stack.all Token.isInner then .ok stack else .error .openingNeverClosed
  | stack, t :: tokens =>
    match t.kind with
    | .number => (t :: ·) <$> arrange stack tokens
    | .operator => do
      let (released, rest) ← releaseTighter t stack
      (released ++ ·) <$> arrange (t :: rest) tokens
    | .leftParen => arrange (t :: stack) tokens
    | .rightParen =>
      match stack.dropWhile Token.isInner with
      | [] => .error .closingWithoutOpening
      | _ :: rest => (stack.takeWhile Token.isInner ++ ·) <$> arrange rest tokens

/-- The tokens of a line in postfix order. -/
def toPostfix (tokens : List Token) : Except Failure (List Token) := arrange [] tokens

end PocketCalculator
