import PocketCalculator.Expression.Token
import PocketCalculator.Settings

/-! # Keypad: the keys and the display

Each key has a symbol and does one of five things.

The display shows the line being typed, the last result or the error tag. A symbol replaces a fresh
zero or an error tag and joins any other text; an operator does not replace the zero, and a number
takes only one point. -/

namespace PocketCalculator

/-! ### The keys -/

/-- What a key does. -/
inductive Action where
  | appendDigit
  | appendOperator
  | clear
  | evaluate
  | toggleHistory
  deriving DecidableEq, Repr

/-- The name of an action. -/
def Action.name : Action → String
  | appendDigit => "append_digit"
  | appendOperator => "append_operator"
  | clear => "clear"
  | evaluate => "evaluate"
  | toggleHistory => "toggle_history"

/-- The symbols of the keys with what they do, in the order of the keypad. -/
def keypad : List (String × Action) :=
  "0123456789.".toList.map (fun c => (String.singleton c, .appendDigit)) ++
    "+-*/()".toList.map (fun c => (String.singleton c, .appendOperator)) ++
    [("C", .clear), ("=", .evaluate), ("H", .toggleHistory)]

/-- What the key of a symbol does. -/
def actionOf? (symbol : String) : Option Action := keypad.lookup symbol

/-! ### The display -/

/-- The text on the display. -/
structure Display where
  text : String
  deriving DecidableEq

namespace Display

/-- The text of a fresh display. -/
def initialText : String := "0"

/-- A fresh display. -/
def fresh : Display := ⟨initialText⟩

/-- The part of a text behind its last operator or parenthesis. -/
def lastNumber (text : String) : String :=
  String.ofList (text.toList.reverse.takeWhile (!isSymbol ·)).reverse

/-- The number being typed. -/
def currentNumber (d : Display) : String := lastNumber d.text

/-- A symbol is typed. -/
def append (settings : Settings) (d : Display) (symbol : String) : Display :=
  if d.text = initialText ∨ d.text = settings.errorTag then
    if d.text = initialText ∧ symbol ∈ Token.operators then d else ⟨symbol⟩
  else if symbol = "." ∧ '.' ∈ d.currentNumber.toList then d
  else ⟨d.text ++ symbol⟩

end Display

end PocketCalculator
