import PocketCalculator.Evaluation
import PocketCalculator.Keypad.Basic

/-! # Keypad: a session

A session is a display and whether the history is shown. Keys are pressed on it one after another;
the key `=` runs an evaluation of the text on the display. A fault leaves the session as it was.

* `Session.evaluate`: the text on the display gives way to its outcome.
* `Session.press`, `Session.pressAll`: keys. -/

namespace PocketCalculator

/-- A display and whether the history is shown beside it. -/
structure Session where
  display : Display
  historyVisible : Bool
  deriving DecidableEq

/-- What is left after an operation: whether it went through, the session and the desk. -/
structure Afterwards where
  result : Except Fault Unit
  session : Session
  desk : Desk

namespace Session

/-- A session on a display. -/
def start (display : Display) : Session := ⟨display, false⟩

/-- A session on a fresh display. -/
def fresh : Session := start .fresh

/-- The session with another text on its display. -/
def showing (s : Session) (text : String) : Session := { s with display := ⟨text⟩ }

/-- The session after an evaluation: a skipped line stays on the display. -/
def afterRun (s : Session) (e : Evaluation) : Session :=
  if e.skipped then s
  else
    match e.displayText with
    | some text => s.showing text
    | none => s

/-- The text on the display is evaluated. -/
def evaluate (settings : Settings) (clock : Readings) (s : Session) (d : Desk) : Afterwards :=
  match (Evaluation.start s.display.text).run settings clock d with
  | (.error fault, d) => ⟨.error fault, s, d⟩
  | (.ok e, d) => ⟨.ok (), s.afterRun e, d⟩

/-- The history is shown, or no longer shown. -/
def toggleHistory (s : Session) : Session := { s with historyVisible := !s.historyVisible }

/-- The session after a key that evaluates nothing. -/
def afterKey (settings : Settings) (s : Session) (symbol : String) : Action → Session
  | .appendDigit | .appendOperator => { s with display := s.display.append settings symbol }
  | .clear => { s with display := .fresh }
  | .toggleHistory => s.toggleHistory
  | .evaluate => s

/-- The note on a key. -/
def keyNotes (symbol : String) (action : Action) : List LogRecord :=
  [⟨.debug, .session, s!"Key '{symbol}' -> {action.name}"⟩]

/-- A key is pressed. -/
def press (settings : Settings) (clock : Readings) (s : Session) (d : Desk) (symbol : String) :
    Afterwards :=
  match actionOf? symbol with
  | none => ⟨.error (.unknownKey symbol), s, d⟩
  | some .evaluate => s.evaluate settings clock (d.note (keyNotes symbol .evaluate))
  | some action => ⟨.ok (), s.afterKey settings symbol action, d.note (keyNotes symbol action)⟩

/-- Keys are pressed in turn, up to a fault. -/
def pressAll (settings : Settings) (clock : Readings) (s : Session) (d : Desk) :
    List String → Afterwards
  | [] => ⟨.ok (), s, d⟩
  | symbol :: symbols =>
    match s.press settings clock d symbol with
    | ⟨.ok (), s, d⟩ => s.pressAll settings clock d symbols
    | stopped => stopped

/-- The keys of the characters of a text. -/
def keysOf (text : String) : List String := text.toList.map String.singleton

end Session

end PocketCalculator
