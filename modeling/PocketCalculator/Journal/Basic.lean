import PocketCalculator.Text.Uppercase
import PocketCalculator.Text.Quoted

/-! # Journal: records filtered by level

Every part of the calculator reports what it does as records of some severity. A journal keeps the
records that pass the threshold of the part they come from.

* `Thresholds.ofLevel`: the thresholds that one named level sets.
* `Journal.add`: a record joins a journal if it passes. -/

namespace PocketCalculator

/-- How serious a record is. -/
inductive Severity where
  | debug
  | info
  | warning
  deriving DecidableEq, Repr

namespace Severity

/-- The rank of a severity among the thresholds. -/
def rank : Severity → Nat
  | debug => 10
  | info => 20
  | warning => 30

/-- The name of a severity. -/
def name : Severity → String
  | debug => "DEBUG"
  | info => "INFO"
  | warning => "WARNING"

end Severity

/-- The part of the calculator that a record comes from. -/
inductive Source where
  | scanner
  | calculation
  | guard
  | run
  | history
  | trace
  | session
  | prompt
  deriving DecidableEq, Repr

/-- One record. -/
structure LogRecord where
  severity : Severity
  source : Source
  message : String
  deriving DecidableEq

/-- A record as a line: its severity, eight characters wide, and its message. -/
def LogRecord.line (r : LogRecord) : String :=
  String.ofList ('[' :: List.replicate (8 - r.severity.name.length) ' ') ++
    s!"{r.severity.name}] {r.message}"

/-- The least ranks that pass, by the part that a record comes from. -/
structure Thresholds where
  /-- For parts without a threshold of their own. -/
  general : Nat
  /-- For calculations. -/
  calculation : Nat
  /-- For guards. -/
  guard : Nat
  /-- For histories. -/
  history : Nat
  /-- For whatever is not part of the calculator. -/
  foreign : Nat
  deriving DecidableEq, Repr

/-- Why a name is refused as a level. -/
inductive LevelError where
  /-- The name, in capitals, means nothing. -/
  | unknown (name : String)
  /-- The name means a text. -/
  | text (content : String)
  /-- The name means neither a number nor a text. -/
  | notANumber
  deriving DecidableEq

/-- The wording of a refused name. -/
def LevelError.message : LevelError → String
  | unknown name => s!"module 'logging' has no attribute '{name}'"
  | text content => "Unknown level: " ++ quoted content
  | notANumber => "Level not an integer or a valid string"

namespace Thresholds

/-- The rank of a level named in capitals. -/
def rankOf? (name : String) : Option Nat :=
  ([("CRITICAL", 50), ("FATAL", 50), ("ERROR", 40), ("WARNING", 30), ("WARN", 30), ("INFO", 20),
    ("DEBUG", 10), ("NOTSET", 0)] : List (String × Nat)).lookup name

/-- The rank of a level by its name in letters of either case. Two names in capitals mean
something other than a level: the layout of a record, and the table of layouts. -/
def rankOf (level : String) : Except LevelError Nat :=
  let name := uppercase level
  match rankOf? name with
  | some rank => .ok rank
  | none =>
    if name = "BASIC_FORMAT" then .error (.text "%(levelname)s:%(name)s:%(message)s")
    else if name = "_STYLES" then .error .notANumber
    else .error (.unknown name)

/-- Guards and histories pass from `INFO` on and foreign parts from `WARNING` on, whatever the
level; all else passes from the level on. -/
def ofRank (rank : Nat) : Thresholds :=
  { general := rank, calculation := rank, guard := 20, history := 20, foreign := 30 }

/-- The thresholds that a named level sets. -/
def ofLevel (level : String) : Except LevelError Thresholds := ofRank <$> rankOf level

/-- The threshold of a part. -/
def of (t : Thresholds) : Source → Nat
  | .calculation => t.calculation
  | .guard => t.guard
  | .history => t.history
  | .scanner | .run | .trace | .session | .prompt => t.general

/-- Whether a record passes. -/
def admits (t : Thresholds) (r : LogRecord) : Bool := t.of r.source ≤ r.severity.rank

/-- The thresholds before any level is set. -/
def initial : Thresholds :=
  { general := 30, calculation := 30, guard := 30, history := 30, foreign := 30 }

end Thresholds

/-- The records that have passed so far, and the thresholds from now on. -/
structure Journal where
  thresholds : Thresholds
  records : List LogRecord

namespace Journal

/-- A journal without records. -/
def start (thresholds : Thresholds) : Journal := ⟨thresholds, []⟩

/-- A record joins the journal if it passes. -/
def add (j : Journal) (r : LogRecord) : Journal :=
  if j.thresholds.admits r then { j with records := j.records ++ [r] } else j

/-- Several records join the journal in turn. -/
def addAll (j : Journal) (rs : List LogRecord) : Journal := rs.foldl add j

theorem addAll_records (j : Journal) (rs : List LogRecord) :
    (j.addAll rs).records = j.records ++ rs.filter j.thresholds.admits ∧
      (j.addAll rs).thresholds = j.thresholds := by
  induction rs generalizing j with
  | nil => simp [addAll]
  | cons r rs ih =>
    have h := ih (j.add r)
    simp only [addAll, List.foldl_cons] at h ⊢
    by_cases hr : j.thresholds.admits r <;> simp_all [add]

end Journal

end PocketCalculator
