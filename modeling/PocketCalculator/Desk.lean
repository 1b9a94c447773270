import PocketCalculator.Binary64.Arithmetic
import PocketCalculator.History.Store
import PocketCalculator.Text.Character
import PocketCalculator.Trace

/-! # Desk: what an evaluation acts on

Besides its line an evaluation works on a history, the files, a trace and a journal. A `Desk` holds
these four. Each operation here does one thing to the desk and tells the journal about it. What the
clock shows meanwhile, and how long the calculation takes, is given from outside as `Readings`. -/

namespace PocketCalculator

/-- What lies ready for evaluations. -/
structure Desk where
  history : History
  files : FileTree
  trace : Trace
  journal : Journal

/-- What the clock shows in the course of a line. It is asked anew for each record; that a later
reading shows a later time is not said. -/
structure Readings where
  /-- The calculation begins. -/
  begun : Timestamp
  /-- Its result is there. -/
  calculated : Timestamp
  /-- The calculation is left. -/
  ended : Timestamp
  /-- The result joins the history. -/
  recorded : Timestamp
  /-- The text for the display is there. -/
  finished : Timestamp
  /-- The seconds that the calculation takes. -/
  elapsed : Binary64

/-- The thousand milliseconds of a second. -/
def thousand : Binary64 := Decimal.toBinary64 ⟨false, 1000, 0⟩

/-- The milliseconds that the calculation takes. -/
def Readings.milliseconds (r : Readings) : Binary64 := r.elapsed * thousand

/-- A clock that stands still, and a stop watch. -/
structure Clock where
  now : Timestamp
  elapsed : Binary64

/-- A clock that stands still shows the same whenever it is asked. -/
def Clock.readings (c : Clock) : Readings :=
  { begun := c.now
    calculated := c.now
    ended := c.now
    recorded := c.now
    finished := c.now
    elapsed := c.elapsed }

instance : Coe Clock Readings := ⟨Clock.readings⟩

namespace Desk

/-- Records for the journal. -/
def note (d : Desk) (rs : List LogRecord) : Desk := { d with journal := d.journal.addAll rs }

/-- A record for the trace. -/
def mark (d : Desk) (now : Timestamp) (event : TraceEvent) : Desk :=
  { d with trace := d.trace.log ⟨now, event⟩ }

/-- A calculation is entered in the trace. -/
def markCalculation (d : Desk) (now : Timestamp) (expression : String)
    (result errorKind : Option String) (milliseconds : Binary64) : Desk :=
  let outcome := TraceEvent.outcomeText "error: " result errorKind
  let shown := leading 100 expression
  (d.mark now (.calculation expression result errorKind milliseconds)).note
    [⟨.info, .trace, s!"Calculated '{shown}' -> {outcome} ({milliseconds.hundredths}ms)"⟩]

/-- The beginning of a step is entered in the trace, with what is kept of its line. -/
def markStart (d : Desk) (now : Timestamp) (step : String) (kept : Json) : Desk :=
  (d.mark now (.entry step kept)).note [⟨.debug, .trace, s!"Entering node: {step}"⟩]

/-- The beginning of a step is entered in the trace, with the first fifty characters of its
line. -/
def markEntry (d : Desk) (now : Timestamp) (step expression : String) : Desk :=
  d.markStart now step (.ofString (leading 50 expression))

/-- The beginning of a step on any value, of which the first fifty parts are kept; a value without
parts in order has none. -/
def markEntryOf? (d : Desk) (now : Timestamp) (step : String) (expression : Json) : Option Desk :=
  (expression.leading? 50).map (d.markStart now step)

/-- The end of a step is entered in the trace. -/
def markExit (d : Desk) (now : Timestamp) (step : String) (display : Json) : Desk :=
  (d.mark now (.exit step display)).note [⟨.debug, .trace, s!"Exiting node: {step}"⟩]

/-- The note on dropped entries. -/
def evictionNotes (h : History) : List LogRecord :=
  if h.evicted = 0 then []
  else [⟨.debug, .history, s!"Evicted {h.evicted} old history entries"⟩]

/-- The note on a recorded entry. -/
def entryNotes (e : Entry) : List LogRecord :=
  let expression := String.ofList e.expression.wording
  let result := String.ofList e.result.wording
  [⟨.info, .history, s!"History: {expression} = {result}"⟩]

/-- The history is written to its file. -/
def save (d : Desk) : Except Fault Unit × Desk :=
  match d.history.save d.files with
  | (files, .ok ()) => (.ok (), { d with files := files })
  | (files, .error cause) => (.error (.file cause), { d with files := files })

/-- An entry is recorded: it joins the history, and the file is written. -/
def record (d : Desk) (e : Entry) : Except Fault Unit × Desk :=
  let d := ({ d with history := d.history.insert e }).note (evictionNotes d.history)
  match d.save with
  | (.ok (), d) => (.ok (), d.note (entryNotes e))
  | (.error fault, d) => (.error fault, d)

/-- The history is emptied, and the file is written. -/
def clearHistory (d : Desk) : Except Fault Unit × Desk :=
  ({ d with history := d.history.clear }).save

/-- A history is opened from the files of the desk and laid out on it. -/
def openHistory (d : Desk) (path : Option Path) (capacity : Int) : Except Fault Unit × Desk :=
  match History.load d.files path capacity with
  | .ok (h, notes) => (.ok (), { d with history := h }.note notes)
  | .error fault => (.error fault, d)

/-- The trace is emptied. -/
def clearTrace (d : Desk) : Desk := { d with trace := d.trace.clear }

end Desk

end PocketCalculator
