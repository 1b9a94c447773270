import PocketCalculator.Calculation
import PocketCalculator.Desk
import PocketCalculator.Guard

/-! # Evaluation: a line from the display to the history

An evaluation goes through stages. `prepare` forgets what an earlier evaluation left behind;
`guard` skips or refuses the line; `evaluate` calculates it; `record` puts a success into the
history; `finalize` decides the text for the display. `next` is the way on after the guards, and
`run` is the whole way. -/

namespace PocketCalculator

/-- The stages of an evaluation. -/
inductive Stage where
  | prepare
  | guard
  | evaluate
  | record
  | finalize
  deriving DecidableEq, Repr

namespace Stage

/-- The name of a stage. -/
def name : Stage → String
  | prepare => "initialize"
  | guard => "guard"
  | evaluate => "evaluate"
  | record => "record"
  | finalize => "finalize"

/-- The stages in their order. -/
def all : List Stage := [prepare, guard, evaluate, record, finalize]

/-- The stage of a name. -/
def ofName? (text : String) : Option Stage := all.find? (·.name = text)

end Stage

/-- What is known of an evaluation. -/
structure Evaluation where
  expression : String
  skipped : Bool
  value : Option Binary64
  errorKind : Option String
  displayText : Option String
  historyEntry : Option Json

/-- The way on after the guards. -/
inductive Next where
  | evaluate
  | finalize
  | stop
  deriving DecidableEq, Repr

namespace Evaluation

/-- An evaluation of which only the line is known. -/
def start (expression : String) : Evaluation := ⟨expression, false, none, none, none, none⟩

/-- Everything but the line is forgotten. -/
def prepare (e : Evaluation) : Evaluation := start e.expression

/-- The line is skipped, refused or let through. -/
def guard (settings : Settings) (e : Evaluation) : Evaluation :=
  if skips settings e.expression then { e with skipped := true }
  else if (refusal? settings e.expression).isSome then
    { e with errorKind := some FailureKind.invalidExpression.name }
  else e

/-- What the journal is told at the guards. -/
def guardStageNotes (settings : Settings) (expression : String) : List LogRecord :=
  if skips settings expression then
    [⟨.debug, .run, s!"Nothing to evaluate in '{expression}'"⟩]
  else
    guardNotes settings expression ++
      match refusal? settings expression with
      | some r => [⟨.warning, .run, s!"Expression refused by guard: {r.message}"⟩]
      | none => []

/-- The way on after the guards. -/
def next (e : Evaluation) : Next :=
  if e.skipped then .stop else if e.errorKind.isSome then .finalize else .evaluate

/-- The evaluation with an outcome entered; what the outcome does not say stays. -/
def withOutcome (e : Evaluation) : Outcome → Evaluation
  | .value x => { e with value := some x }
  | .failed kind _ => { e with errorKind := some kind.name }

/-- The line is calculated. -/
def evaluate (settings : Settings) (clock : Readings) (e : Evaluation) (d : Desk) :
    Except Fault Evaluation × Desk :=
  let d := d.markEntry clock.begun Stage.evaluate.name e.expression
  let d := d.note (calculationNotes e.expression)
  match calculate settings e.expression with
  | .error fault => (.error fault, d)
  | .ok outcome =>
    let d := d.markCalculation clock.calculated e.expression (outcome.value?.map Binary64.shown)
      (outcome.kind?.map FailureKind.name) clock.milliseconds
    let e := e.withOutcome outcome
    (.ok e, d.markExit clock.ended Stage.evaluate.name (.ofText? e.displayText))

/-- A value without an error is recorded in the history. -/
def record (clock : Readings) (e : Evaluation) (d : Desk) : Except Fault Evaluation × Desk :=
  match e.errorKind, e.value with
  | none, some x =>
    let entry := Entry.ofTexts clock.recorded e.expression x.shown
    match d.record entry with
    | (.ok (), d) => (.ok { e with historyEntry := some entry.toJson }, d)
    | (.error fault, d) => (.error fault, d)
  | _, _ => (.ok e, d)

/-- The text for the display: the error tag, or the value. -/
def finalText (settings : Settings) (e : Evaluation) : Except Fault String :=
  match e.errorKind, e.value with
  | some _, _ => .ok settings.errorTag
  | none, some x => .ok x.shown
  | none, none => .error .nothingToShow

/-- The text for the display is entered. -/
def finalize (settings : Settings) (clock : Readings) (e : Evaluation) (d : Desk) :
    Except Fault Evaluation × Desk :=
  match e.finalText settings with
  | .error fault => (.error fault, d)
  | .ok text =>
    (.ok { e with displayText := some text },
      d.markExit clock.finished Stage.finalize.name (.ofString text))

/-- One stage by itself. -/
def stage (settings : Settings) (clock : Readings) (e : Evaluation) (d : Desk) :
    Stage → Except Fault Evaluation × Desk
  | .prepare => (.ok e.prepare, d)
  | .guard => (.ok (e.guard settings), d.note (guardStageNotes settings e.expression))
  | .evaluate => e.evaluate settings clock d
  | .record => e.record clock d
  | .finalize => e.finalize settings clock d

/-- The stages after the guards let a line through. -/
def complete (settings : Settings) (clock : Readings) (e : Evaluation) (d : Desk) :
    Except Fault Evaluation × Desk :=
  match e.evaluate settings clock d with
  | (.error fault, d) => (.error fault, d)
  | (.ok e, d) =>
    match e.record clock d with
    | (.error fault, d) => (.error fault, d)
    | (.ok e, d) => e.finalize settings clock d

/-- The whole way of a line. -/
def run (settings : Settings) (clock : Readings) (e : Evaluation) (d : Desk) :
    Except Fault Evaluation × Desk :=
  let d := d.note (guardStageNotes settings e.expression)
  let e := e.prepare.guard settings
  match e.next with
  | .stop => (.ok e, d)
  | .finalize => e.finalize settings clock d
  | .evaluate => e.complete settings clock d

end Evaluation

/-- The report that the stages fit together, with their names. -/
def stagesReport : String :=
  let names := "__start__" :: Stage.all.map Stage.name
  "Graph built successfully!\nNodes: [" ++ ", ".intercalate (names.map quoted) ++ "]\n"

end PocketCalculator
