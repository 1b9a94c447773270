import PocketCalculator.Proofs.Endings

/-! # Several sessions and several histories

One process has any number of sessions and of histories; files, trace and journal are the same for
all. It is asked to press keys, to evaluate lines on a history and to calculate lines (`Demand`);
in between, records are written into the trace by hand and the trace is cleared (`Request`). Every
request is met in turn, also after one that was stopped. Whether the saves succeed is seen from the
replies (`Office.AllSaved`); they do if no history has a file (`Office.InMemory.allSaved`). -/

namespace PocketCalculator

/-- What is asked for a reply. -/
inductive Demand (ι κ : Type) where
  /-- A key is pressed on a session. -/
  | press (i : ι) (symbol : String)
  /-- A line is evaluated before a history, whatever else is known of it. -/
  | evaluate (k : κ) (e : Evaluation)
  /-- A line is calculated. -/
  | calculate (line : String)

/-- **What is asked:** something that is replied to, with what the clock shows meanwhile, or
something about the trace. -/
inductive Request (ι κ : Type) where
  | demand (clock : Readings) (what : Demand ι κ)
  /-- The beginning of a step is entered in the trace, with what is kept of a value. -/
  | enterStart (now : Timestamp) (step : String) (expression : Json)
  /-- The end of a step is entered. -/
  | enterExit (now : Timestamp) (step : String) (display : Json)
  /-- A calculation is entered. -/
  | enterCalculation (now : Timestamp) (expression : String) (result errorKind : Option String)
      (milliseconds : Binary64)
  | clearTrace

/-- What comes back. -/
inductive Reply where
  /-- The text on the display. -/
  | shown (text : String)
  /-- What is known of the line in the end. -/
  | evaluated (e : Evaluation)
  | calculated (outcome : Outcome)

/-- **Sessions and histories** before the desk of one process. -/
structure Office (ι κ : Type) where
  sessions : ι → Session
  /-- The history that a session records in. -/
  historyOf : ι → κ
  histories : κ → History
  /-- Files, trace and journal, with the history that was used last. -/
  desk : Desk

namespace Office

variable {ι κ : Type} {settings : Settings}

/-- The desk with one of the histories on it. -/
def layOut (o : Office ι κ) (k : κ) : Desk := { o.desk with history := o.histories k }

section Run
variable [DecidableEq ι] [DecidableEq κ]

/-- The office when a desk is left with one of the histories. -/
def putAway (o : Office ι κ) (k : κ) (d : Desk) : Office ι κ :=
  { o with histories := fun j => if k = j then d.history else o.histories j, desk := d }

/-- The reply to a demand, or the fault that it ends in, and the office after it. -/
def respond (settings : Settings) (o : Office ι κ) (clock : Readings) :
    Demand ι κ → Except Fault Reply × Office ι κ
  | .press i symbol =>
    let left := (o.sessions i).press settings clock (o.layOut (o.historyOf i)) symbol
    (left.result.map fun _ => .shown left.session.display.text,
      { o.putAway (o.historyOf i) left.desk with
        sessions := fun j => if i = j then left.session else o.sessions j })
  | .evaluate k e =>
    let (result, d) := e.run settings clock (o.layOut k)
    (result.map .evaluated, o.putAway k d)
  | .calculate line =>
    ((calculate settings line).map .calculated,
      { o with desk := o.desk.note (calculationNotes line) })

/-- The office after a request. -/
def meet (settings : Settings) (o : Office ι κ) : Request ι κ → Office ι κ
  | .demand clock what => (o.respond settings clock what).2
  | .enterStart now step expression =>
    { o with desk := (o.desk.markEntryOf? now step expression).getD o.desk }
  | .enterExit now step display => { o with desk := o.desk.markExit now step display }
  | .enterCalculation now expression result errorKind milliseconds =>
    { o with desk := o.desk.markCalculation now expression result errorKind milliseconds }
  | .clearTrace => { o with desk := o.desk.clearTrace }

/-- **The office after requests,** of which the latest is given first. -/
def after (settings : Settings) (o : Office ι κ) : List (Request ι κ) → Office ι κ
  | [] => o
  | request :: earlier => (o.after settings earlier).meet settings request

/-- **All saves succeed:** no demand ends in a fault of the files. -/
def AllSaved (settings : Settings) (o : Office ι κ) : List (Request ι κ) → Prop
  | [] => True
  | .demand clock what :: earlier =>
    Unhindered ((o.after settings earlier).respond settings clock what).1 ∧
      o.AllSaved settings earlier
  | _ :: earlier => o.AllSaved settings earlier

end Run

/-- A demand that can be saved, if it comes to something to record. -/
def CanSave (settings : Settings) (o : Office ι κ) : Demand ι κ → Prop
  | .press i symbol =>
    (o.sessions i).Calculates settings symbol → (o.layOut (o.historyOf i)).CanSave
  | .evaluate k e =>
    ∀ v, courseOf settings e.expression = .ok (.calculated v) → (o.layOut k).CanSave
  | .calculate _ => True

variable [DecidableEq ι] [DecidableEq κ]

theorem canSave_of_respond {o : Office ι κ} {clock : Readings} {what : Demand ι κ}
    (h : Unhindered (o.respond settings clock what).1) :
    o.CanSave settings what := by
  cases what with
  | press i symbol =>
    refine Session.canSave_of_press clock fun cause hpress => h cause ?_
    rw [respond, hpress]
    rfl
  | evaluate k e =>
    intro v hcourse
    refine Evaluation.canSave_of_run clock (fun cause hrun => h cause ?_) hcourse
    rw [respond, show e.run settings clock (o.layOut k) = (_, _) from Prod.ext hrun rfl]
    rfl
  | calculate => trivial

namespace AllSaved

variable {o : Office ι κ} {request : Request ι κ} {requests : List (Request ι κ)}

theorem earlier (h : o.AllSaved settings (request :: requests)) :
    o.AllSaved settings requests := by
  cases request with
  | demand => exact h.2
  | enterStart => exact h
  | enterExit => exact h
  | enterCalculation => exact h
  | clearTrace => exact h

theorem latest (h : o.AllSaved settings (request :: requests)) :
    (o.after settings requests).AllSaved settings [request] := by
  cases request with
  | demand => exact ⟨h.1, trivial⟩
  | enterStart => trivial
  | enterExit => trivial
  | enterCalculation => trivial
  | clearTrace => trivial

end AllSaved

/-! ### How a demand ends -/

section Demand
variable {o : Office ι κ}

theorem exists_press (clock : Readings) {i : ι} {symbol : String}
    (hd : o.CanSave settings (.press i symbol)) :
    ∃ d : Desk, o.respond settings clock (.press i symbol) =
        (((o.sessions i).pressed settings symbol).map fun s => .shown s.display.text,
          { o.putAway (o.historyOf i) d with
            sessions := fun j =>
              if i = j then ((o.sessions i).pressed settings symbol).toOption.getD (o.sessions i)
              else o.sessions j }) ∧
      d.trace = ((o.sessions i).keyRecords settings clock symbol).foldl Trace.log o.desk.trace ∧
      d.history = (o.sessions i).keyRecording settings clock symbol
        (o.histories (o.historyOf i)) := by
  obtain ⟨d, hpress, htrace, hhistory⟩ := (o.sessions i).press_ends clock hd
  refine ⟨d, ?_, htrace, hhistory⟩
  rw [respond, hpress]
  cases (o.sessions i).pressed settings symbol <;> rfl

theorem exists_evaluate (clock : Readings) {k : κ} {e : Evaluation}
    (hd : o.CanSave settings (.evaluate k e)) :
    ∃ d : Desk, o.respond settings clock (.evaluate k e) =
        ((courseOf settings e.expression).map fun course =>
          .evaluated (course.evaluation settings clock e.expression), o.putAway k d) ∧
      d.trace = (lineRecords settings clock e.expression).foldl Trace.log o.desk.trace ∧
      d.history = (o.histories k).recording settings clock e.expression := by
  obtain ⟨d, hrun, htrace, hhistory⟩ := e.run_ends clock hd
  refine ⟨d, ?_, htrace, hhistory⟩
  rw [respond, hrun]
  cases courseOf settings e.expression <;> rfl

end Demand

/-! ### Histories in memory -/

/-- No history has a file. -/
def InMemory (o : Office ι κ) : Prop := ∀ k, (o.histories k).path = none

namespace InMemory

variable {o : Office ι κ}

omit [DecidableEq ι] [DecidableEq κ] in
theorem canSave (h : o.InMemory) (what : Demand ι κ) : o.CanSave settings what := by
  have hd : ∀ k, (o.layOut k).CanSave := fun k => Desk.canSave_of_path_eq_none (h k)
  cases what with
  | press i symbol => exact fun _ => hd _
  | evaluate k e => exact fun _ _ => hd _
  | calculate => trivial

omit [DecidableEq ι] in
theorem putAway (h : o.InMemory) {k : κ} {d : Desk} (hd : d.history.path = (o.histories k).path) :
    (o.putAway k d).InMemory := by
  intro j
  simp only [Office.putAway]
  split
  · exact hd.trans (h k)
  · exact h j

/-- The step of a demand: no file is in the way, and none comes up. -/
theorem respond (h : o.InMemory) (clock : Readings) (what : Demand ι κ) :
    (o.respond settings clock what).2.InMemory ∧
      Unhindered (o.respond settings clock what).1 := by
  cases what with
  | press i symbol =>
    obtain ⟨d, hrespond, -, hhistory⟩ := exists_press clock (h.canSave (.press i symbol))
    rw [hrespond]
    exact ⟨h.putAway (by rw [hhistory, Session.path_keyRecording]),
      unhindered_map.mpr (Session.unhindered_pressed _ _)⟩
  | evaluate k e =>
    obtain ⟨d, hrespond, -, hhistory⟩ := exists_evaluate clock (h.canSave (.evaluate k e))
    rw [hrespond]
    exact ⟨h.putAway (by rw [hhistory, History.path_recording]),
      unhindered_map.mpr (unhindered_courseOf _)⟩
  | calculate line => exact ⟨h, unhindered_map.mpr (unhindered_calculate line)⟩

theorem after (h : o.InMemory) (requests : List (Request ι κ)) :
    (o.after settings requests).InMemory := by
  induction requests with
  | nil => exact h
  | cons request earlier ih =>
    cases request with
    | demand clock what => exact (ih.respond clock what).1
    | enterStart => exact ih
    | enterExit => exact ih
    | enterCalculation => exact ih
    | clearTrace => exact ih

/-- **In memory all saves succeed.** -/
theorem allSaved (h : o.InMemory) (requests : List (Request ι κ)) :
    o.AllSaved settings requests := by
  induction requests with
  | nil => trivial
  | cons request earlier ih =>
    cases request with
    | demand clock what => exact ⟨((h.after earlier).respond clock what).2, ih⟩
    | enterStart => exact ih
    | enterExit => exact ih
    | enterCalculation => exact ih
    | clearTrace => exact ih

end InMemory

/-- One session on a text, before an empty history in memory and a trace. -/
def single (text : String) (trace : Trace) : Office Unit Unit :=
  ⟨fun _ => .start ⟨text⟩, fun _ => (), fun _ => ⟨none, 50, []⟩,
    { Desk.inMemory with trace := trace }⟩

theorem inMemory_single (text : String) (trace : Trace) : (single text trace).InMemory :=
  fun _ => rfl

end Office

end PocketCalculator
