import PocketCalculator.Decimal.Places
import PocketCalculator.Decimal.Reading
import PocketCalculator.Expression.Failure
import PocketCalculator.Files.Tree
import PocketCalculator.Journal.Basic

/-! # Faults: what stops the calculator

A failed calculation is an ordinary outcome. A fault is not: it ends whatever was being done, and
the state reached so far stays. -/

namespace PocketCalculator

/-- What ends an operation before it has an outcome. -/
inductive Fault where
  /-- A failure that has no kind to be reported by. -/
  | failure (cause : Failure)
  /-- A value cannot be rounded for the display. -/
  | rounding (cause : RoundingError)
  /-- There is neither a value nor a failure to show. -/
  | nothingToShow
  /-- A file cannot be read or written. -/
  | file (cause : FileFault)
  /-- A file is not text. -/
  | notText
  /-- A file has a whole number of too many digits. -/
  | integer (cause : IntegerError)
  /-- A file has arrays and objects inside each other beyond the limit. -/
  | tooDeep
  /-- A history is to keep no entry at all. -/
  | noCapacity
  /-- No key has a symbol. -/
  | unknownKey (symbol : String)
  /-- A name is not that of a level. -/
  | level (cause : LevelError)
  deriving DecidableEq

/-- The wording of a fault. -/
def Fault.message : Fault → String
  | failure cause => cause.message
  | rounding cause => cause.message
  | nothingToShow => "there is no value to show"
  | file cause => cause.message
  | notText => "the file is not text"
  | integer cause => cause.message
  | tooDeep => "the file is nested too deeply"
  | noCapacity => "History capacity must be at least 1"
  | unknownKey symbol => s!"No keypad action for symbol '{symbol}'"
  | level cause => cause.message

end PocketCalculator
