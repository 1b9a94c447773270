import PocketCalculator.Calendar.Timestamp
import PocketCalculator.Decimal.Places
import PocketCalculator.Json.Basic

/-! # Trace: what evaluations did

A trace keeps the last records of what was done, up to its limit: calculations, and the steps of an
evaluation as they begin and end. What a step began with and what it leaves on the display are JSON
values, since any may be recorded; an evaluation itself only records texts.

* `Trace.log`: a record joins a trace; the oldest ones give way.
* `Trace.summary`: the records as lines. -/

namespace PocketCalculator

/-- What a record of a trace is about. -/
inductive TraceEvent where
  /-- A line was calculated, with a result or a kind of failure. -/
  | calculation (expression : String) (result errorKind : Option String)
      (milliseconds : Binary64)
  /-- A step began on a line, of which the first characters are kept. -/
  | entry (step : String) (expression : Json)
  /-- A step ended, with what is for the display, null as long as it is not known. -/
  | exit (step : String) (display : Json)

/-- A record of a trace. -/
structure TraceRecord where
  time : Timestamp
  event : TraceEvent

/-- The last records, the newest one last, up to a limit. -/
structure Trace where
  limit : Nat
  records : List TraceRecord

/-- The last `n` elements of a list. -/
def lastOf {α : Type} (n : Nat) (l : List α) : List α := l.drop (l.length - n)

theorem length_lastOf_le {α : Type} (n : Nat) (l : List α) : (lastOf n l).length ≤ n := by
  simp only [lastOf, List.length_drop]; omega

namespace TraceEvent

/-- What a calculation came to, in words; the failure is marked as such with a word in front. -/
def outcomeText (mark : String) (result errorKind : Option String) : String :=
  match errorKind with
  | some kind => mark ++ kind
  | none => result.getD "None"

/-- A line of the summary, without its time. -/
def line : TraceEvent → String
  | calculation expression result errorKind milliseconds =>
    let outcome := outcomeText "" result errorKind
    s!"CALC: {expression} -> {outcome} ({milliseconds.hundredths}ms)"
  | entry step _ => s!"ENTER: {step}"
  | exit step _ => s!"EXIT: {step}"

/-- Whether the record is one of a calculation. -/
def isCalculation : TraceEvent → Bool
  | calculation .. => true
  | _ => false

end TraceEvent

namespace Trace

/-- A trace without records. -/
def empty (limit : Nat) : Trace := ⟨limit, []⟩

/-- A record joins the trace; the oldest ones beyond the limit are dropped. -/
def log (t : Trace) (r : TraceRecord) : Trace :=
  { t with records := lastOf t.limit (t.records ++ [r]) }

theorem length_records_log_le (t : Trace) (r : TraceRecord) :
    (t.log r).records.length ≤ t.limit := length_lastOf_le _ _

/-- All records are dropped. -/
def clear (t : Trace) : Trace := { t with records := [] }

/-- The records of calculations. -/
def calculations (t : Trace) : List TraceRecord := t.records.filter (·.event.isCalculation)

/-- The records as lines under a heading. -/
def summary (t : Trace) : String :=
  if t.records.isEmpty then "No trace data"
  else
    "\n".intercalate ("\n=== Calculator Execution Trace ===" ::
      t.records.map fun r => s!"[{r.time.clockText}] {r.event.line}")

end Trace

end PocketCalculator
