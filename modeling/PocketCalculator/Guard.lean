import PocketCalculator.Journal.Basic
import PocketCalculator.Settings
import PocketCalculator.Text.Character

/-! # Guard: what is evaluated at all

A blank line and a shown error tag are skipped. A line that is too long is refused. Characters that
no token takes up are reported, each once, and otherwise ignored. -/

namespace PocketCalculator

/-- A line is longer than allowed. -/
structure Refusal where
  length : Nat
  limit : Int
  deriving DecidableEq, Repr

/-- The wording of a refusal. -/
def Refusal.message (r : Refusal) : String :=
  s!"Expression is {r.length} characters long, limit is {r.limit}"

/-- Whether a line is left alone: nothing in it, or the error tag. -/
def skips (settings : Settings) (line : String) : Bool :=
  isBlankText line || line == settings.errorTag

/-- The refusal of a line that is too long. -/
def refusal? (settings : Settings) (line : String) : Option Refusal :=
  if settings.maxExpressionLength < line.length then
    some ⟨line.length, settings.maxExpressionLength⟩
  else none

/-- The characters that are expected in a line. -/
def expectedCharacters : List Char := "0123456789.+-*/() \t".toList

/-- One step of the search for unexpected characters: each is noted where it first stands. -/
def noteUnexpected (found : List Char) (c : Char) : List Char :=
  if c ∈ expectedCharacters ∨ c ∈ found then found else found ++ [c]

/-- The unexpected characters of a line, each once, in order of appearance. -/
def unexpected (line : String) : List Char := line.toList.foldl noteUnexpected []

/-- A list of characters in quotes and brackets. -/
def bracketed (cs : List Char) : String :=
  "[" ++ ", ".intercalate (cs.map fun c => quoted (String.singleton c)) ++ "]"

/-- The note that a line is too long. -/
def lengthNotes (settings : Settings) (line : String) : List LogRecord :=
  match refusal? settings line with
  | some r => [⟨.warning, .guard, r.message⟩]
  | none => []

/-- The note on unexpected characters. -/
def unexpectedNotes (line : String) : List LogRecord :=
  match unexpected line with
  | [] => []
  | found =>
    [⟨.warning, .guard,
      s!"Ignoring unrecognized characters {bracketed found} in '{leading 50 line}'"⟩]

/-- What the journal is told about the guards of a line. -/
def guardNotes (settings : Settings) (line : String) : List LogRecord :=
  ⟨.debug, .guard, s!"Applying guards to expression: '{leading 100 line}'"⟩ ::
    (lengthNotes settings line ++
      match refusal? settings line with
      | some r => [⟨.warning, .guard, s!"Guard check failed: {r.message}"⟩]
      | none => unexpectedNotes line ++ [⟨.debug, .guard, "All guard checks passed"⟩])

end PocketCalculator
