import PocketCalculator.Expression.Value
import PocketCalculator.Fault
import PocketCalculator.Journal.Basic
import PocketCalculator.Settings

/-! # Calculation: the outcome of a line

The outcome of a line is its value, rounded for the display, or the failure by which it is
reported. `calculationNotes` is what the journal is told about it. -/

namespace PocketCalculator

/-- What a calculation comes to. -/
inductive Outcome where
  | value (x : Binary64)
  | failed (kind : FailureKind) (cause : Failure)
  deriving DecidableEq

namespace Outcome

/-- The value, if there is one. -/
def value? : Outcome → Option Binary64
  | value x => some x
  | failed .. => none

/-- The kind of failure, if it is one. -/
def kind? : Outcome → Option FailureKind
  | value _ => none
  | failed kind _ => some kind

/-- The text that the display shows: the value, or the error tag. -/
def shown (settings : Settings) : Outcome → String
  | value x => x.shown
  | failed .. => settings.errorTag

end Outcome

/-- The outcome of a line. -/
def calculate (settings : Settings) (line : String) : Except Fault Outcome :=
  match lineValue line with
  | .ok x =>
    match x.roundForDisplay settings.displayDecimals with
    | .ok shown => .ok (.value shown)
    | .error cause => .error (.rounding cause)
  | .error cause =>
    match cause.kind? with
    | some kind => .ok (.failed kind cause)
    | none => .error (.failure cause)

/-- The note that a line has been split into tokens. -/
def tokenNotes (line : String) : List LogRecord :=
  match tokensOf line with
  | [] => []
  | tokens => [⟨.debug, .scanner, s!"Tokenized '{line}' into {tokens.length} tokens"⟩]

/-- The note that a line has failed. -/
def failureNotes (line : String) (cause : Failure) : List LogRecord :=
  match cause.kind? with
  | some kind =>
    [⟨.warning, .calculation,
      s!"Calculation failed ({kind.name}) for '{line}': {cause.message}"⟩]
  | none => []

/-- What the journal is told about the calculation of a line. -/
def calculationNotes (line : String) : List LogRecord :=
  tokenNotes line ++
    match lineValue line with
    | .ok _ => []
    | .error cause => failureNotes line cause

end PocketCalculator
