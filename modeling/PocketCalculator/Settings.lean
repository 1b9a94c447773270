import PocketCalculator.Decimal.Reading
import PocketCalculator.Files.Path

/-! # Settings: what the environment decides

`Settings.ofEnvironment` reads the settings from named texts, each with a default. The whole
numbers are read in a fixed order, so that the first unreadable one is reported. -/

namespace PocketCalculator

/-- What can be set from outside. -/
structure Settings where
  /-- The folder of the user's data. -/
  dataFolder : Path
  /-- The file of the history. -/
  historyFile : Path
  /-- The number of entries that a history keeps unless told otherwise. -/
  historyLimit : Int
  /-- The number of decimal places shown. -/
  displayDecimals : Int
  /-- The text that stands on the display for an error. -/
  errorTag : String
  /-- The greatest length of a line that is evaluated. -/
  maxExpressionLength : Int
  /-- The number of records that a trace keeps. -/
  traceLimit : Nat
  /-- The name of the level of the journal. -/
  logLevel : String

/-- Why an environment is refused. -/
inductive SettingsError where
  /-- The home folder is itself given relative to a home folder. -/
  | noHome
  /-- A whole number cannot be read. -/
  | unreadable (cause : IntegerError)
  /-- The number of trace records is negative. -/
  | negativeTraceLimit
  /-- The number of trace records is beyond a machine word. -/
  | hugeTraceLimit
  deriving DecidableEq

/-- The wording of a refused environment. -/
def SettingsError.message : SettingsError → String
  | noHome => "Could not determine home directory."
  | unreadable cause => cause.message
  | negativeTraceLimit => "maxlen must be non-negative"
  | hugeTraceLimit => "Python int too large to convert to C ssize_t"

/-- Texts by name. -/
abbrev Environment := String → Option String

/-- An environment that sets nothing. -/
def Environment.empty : Environment := fun _ => none

namespace Settings

/-- The names that are looked up in an environment. -/
def names : List String :=
  ["HOME", "DATA_DIR", "HISTORY_FILE", "HISTORY_LIMIT", "DISPLAY_DECIMALS", "ERROR_TAG",
   "MAX_EXPRESSION_LENGTH", "TRACE_LIMIT", "LOG_LEVEL"]

/-- The value of a name, or its default. -/
def textOf (env : Environment) (name default : String) : String := (env name).getD default

/-- The whole number of a name, or its default. -/
def integerOf (env : Environment) (name default : String) : Except SettingsError Int :=
  match readInteger (textOf env name default) with
  | .ok n => .ok n
  | .error cause => .error (.unreadable cause)

/-- A text without the slashes at its end; the root for nothing else. -/
def folderText (text : String) : String :=
  match (text.toList.reverse.dropWhile (· = '/')).reverse with
  | [] => "/"
  | cs => String.ofList cs

/-- The home folder. -/
def homeOf (env : Environment) : Except SettingsError Path :=
  let home := folderText (textOf env "HOME" "/home/user")
  if home.toList.head? = some '~' then .error .noHome else .ok (.ofString home)

/-- The folder of the user's data: the given one, or a hidden one in the home folder. -/
def dataFolderOf (env : Environment) (home : Path) : Path :=
  match env "DATA_DIR" with
  | some text => .ofString text
  | none => home.child ".rpncalc"

/-- The file of the history: the given one, or one in the folder of the user's data. -/
def historyFileOf (env : Environment) (dataFolder : Path) : Path :=
  match env "HISTORY_FILE" with
  | some text => .ofString text
  | none => dataFolder.child "history.json"

/-- The greatest number that a signed machine word of 64 bits holds. -/
def greatestWord : Int := 9223372036854775807

/-- The number of trace records, from zero to the greatest machine word. -/
def traceLimitOf (n : Int) : Except SettingsError Nat :=
  if n < -greatestWord - 1 ∨ greatestWord < n then .error .hugeTraceLimit
  else if n < 0 then .error .negativeTraceLimit
  else .ok n.toNat

/-- The settings of an environment. -/
def ofEnvironment (env : Environment) : Except SettingsError Settings := do
  let home ← homeOf env
  let dataFolder := dataFolderOf env home
  let historyLimit ← integerOf env "HISTORY_LIMIT" "50"
  let displayDecimals ← integerOf env "DISPLAY_DECIMALS" "8"
  let maxExpressionLength ← integerOf env "MAX_EXPRESSION_LENGTH" "256"
  let traceLimit ← integerOf env "TRACE_LIMIT" "200"
  return {
    dataFolder := dataFolder
    historyFile := historyFileOf env dataFolder
    historyLimit := historyLimit
    displayDecimals := displayDecimals
    errorTag := textOf env "ERROR_TAG" "Error"
    maxExpressionLength := maxExpressionLength
    traceLimit := ← traceLimitOf traceLimit
    logLevel := textOf env "LOG_LEVEL" "INFO" }

end Settings

end PocketCalculator
