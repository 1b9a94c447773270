import PocketCalculator.Calculation

/-! # Prompt: lines calculated one by one

The prompt asks for lines and answers each with its value or with why it has none, until the letter
`q` is typed or the lines run out. -/

namespace PocketCalculator

/-- Why a prompt comes to an end other than by the letter `q`. -/
inductive PromptEnd where
  /-- There are no more lines. -/
  | outOfLines
  | fault (cause : Fault)
  deriving DecidableEq

/-- What a prompt leaves: the text it has written, its notes, and how it ended. -/
structure PromptLog where
  output : String
  notes : List LogRecord
  ended : Option PromptEnd

namespace Prompt

/-- What is written to ask for a line. -/
def question : String := "Enter expression (or 'q' to quit): "

/-- Whether a line ends the prompt. -/
def quits (line : String) : Bool := line = "q" || line = "Q"

/-- The answer to a line. -/
def answer : Outcome → String
  | .value x => s!"= {x.shown}\n"
  | .failed _ cause => s!"Error: {cause.message}\n"

/-- The notes on a line; failures come from the prompt itself. -/
def notes (line : String) : List LogRecord :=
  (calculationNotes line).map fun r =>
    if r.source = .calculation then { r with source := .prompt } else r

/-- The conversation over lines. -/
def run (settings : Settings) : List String → PromptLog
  | [] => ⟨question, [], some .outOfLines⟩
  | line :: lines =>
    if quits line then ⟨question, [], none⟩
    else
      match calculate settings line with
      | .error fault => ⟨question, notes line, some (.fault fault)⟩
      | .ok outcome =>
        let rest := run settings lines
        ⟨question ++ answer outcome ++ rest.output, notes line ++ rest.notes, rest.ended⟩

/-- The lines of a text; what follows the last end of line is a line unless it is empty. -/
def linesOf (text : String) : List String :=
  let parts := (text.toList.splitOn '\n').map String.ofList
  if parts.getLast? = some "" then parts.dropLast else parts

end Prompt

end PocketCalculator
