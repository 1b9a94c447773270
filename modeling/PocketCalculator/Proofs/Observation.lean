import PocketCalculator.Proofs.Office

/-! # What is only observed

Trace, journal and clocks watch what is done and take no part in it. Two offices do the same work
(`Office.SameWork`) if their sessions are the same and their histories tell the same, whatever the
times, traces, journals and files are. The step of a demand keeps this and brings the same reply at
any times (`Office.SameWork.respond`); a request about the trace keeps it too and is not replied to
(`Office.sameWork_idle`). So a row of requests comes to its demands (`Office.exists_latest`), and
the run of two offices is an induction on these (`observation_free`). -/

namespace PocketCalculator

/-- A recorded entry without its time. -/
def Json.untimed : Json → Json
  | .object fields => .object (fields.filter fun field => field.1 ≠ Units.ofString "timestamp")
  | value => value

/-- What is known of an evaluation apart from the time of its entry. -/
def Evaluation.untimed (e : Evaluation) : Evaluation :=
  { e with historyEntry := e.historyEntry.map Json.untimed }

/-- A reply apart from the time of an entry in it. -/
def Reply.untimed : Reply → Reply
  | .shown text => .shown text
  | .evaluated e => .evaluated e.untimed
  | .calculated outcome => .calculated outcome

/-- What a request asks to be replied to; one about the trace asks nothing. -/
def Request.demand? {ι κ : Type} : Request ι κ → Option (Demand ι κ)
  | .demand _ what => some what
  | .enterStart .. | .enterExit .. | .enterCalculation .. | .clearTrace => none

/-- The settings with another limit for the trace and another level for the journal. -/
def Settings.observedBy (settings : Settings) (traceLimit : Nat) (logLevel : String) : Settings :=
  { settings with traceLimit := traceLimit, logLevel := logLevel }

theorem Entry.untimed_toJson (e : Entry) :
    e.toJson.untimed = .object [(Units.ofString "expression", e.expression),
      (Units.ofString "result", e.result)] := rfl

theorem Course.untimed_evaluation (settings : Settings) (clock clock' : Readings) (line : String)
    (course : Course) :
    (course.evaluation settings clock line).untimed =
      (course.evaluation settings clock' line).untimed := by
  cases course with
  | skipped => rfl
  | refused => rfl
  | failed => rfl
  | calculated v =>
    simp only [evaluation, Evaluation.untimed, Option.map_some, Entry.untimed_toJson]
    rfl

namespace Office

variable {ι κ : Type} {settings : Settings}

/-- **Offices that do the same work:** the sessions are the same, and the histories tell the
same. -/
structure SameWork (o o' : Office ι κ) : Prop where
  sessions_eq : o.sessions = o'.sessions
  historyOf_eq : o.historyOf = o'.historyOf
  histories : ∀ k, (o.histories k).SameColumns (o'.histories k)

namespace SameWork

variable {o o' o'' : Office ι κ}

theorem symm (h : o.SameWork o') : o'.SameWork o :=
  ⟨h.sessions_eq.symm, h.historyOf_eq.symm, fun k => (h.histories k).symm⟩

theorem trans (h : o.SameWork o') (h' : o'.SameWork o'') : o.SameWork o'' :=
  ⟨h.sessions_eq.trans h'.sessions_eq, h.historyOf_eq.trans h'.historyOf_eq,
    fun k => (h.histories k).trans (h'.histories k)⟩

theorem withDesk (o : Office ι κ) (d : Desk) : SameWork { o with desk := d } o :=
  ⟨rfl, rfl, fun _ => .refl _⟩

theorem putAway [DecidableEq κ] (h : o.SameWork o') {k : κ} {d d' : Desk}
    (hd : d.history.SameColumns d'.history) : (o.putAway k d).SameWork (o'.putAway k d') where
  sessions_eq := h.sessions_eq
  historyOf_eq := h.historyOf_eq
  histories := by
    intro j
    simp only [Office.putAway]
    split
    · exact hd
    · exact h.histories j

end SameWork

variable [DecidableEq ι] [DecidableEq κ]

/-- **The replies to requests,** of which the latest is given first. -/
def replies (settings : Settings) (o : Office ι κ) : List (Request ι κ) → List (Except Fault Reply)
  | [] => []
  | .demand clock what :: earlier =>
    ((o.after settings earlier).respond settings clock what).1 :: o.replies settings earlier
  | _ :: earlier => o.replies settings earlier

/-! ### Requests about the trace -/

section Idle
variable (settings) (o : Office ι κ)

theorem sameWork_idle {request : Request ι κ} (hidle : request.demand? = none)
    (earlier : List (Request ι κ)) :
    (o.after settings (request :: earlier)).SameWork (o.after settings earlier) ∧
      o.replies settings (request :: earlier) = o.replies settings earlier := by
  cases request with
  | demand => cases hidle
  | enterStart => exact ⟨.withDesk _ _, rfl⟩
  | enterExit => exact ⟨.withDesk _ _, rfl⟩
  | enterCalculation => exact ⟨.withDesk _ _, rfl⟩
  | clearTrace => exact ⟨.withDesk _ _, rfl⟩

theorem sameWork_of_no_demand {requests : List (Request ι κ)}
    (hidle : requests.filterMap Request.demand? = []) :
    (o.after settings requests).SameWork o ∧ o.replies settings requests = [] := by
  induction requests with
  | nil => exact ⟨.withDesk o o.desk, rfl⟩
  | cons request earlier ih =>
    cases hdemand : request.demand? with
    | some what =>
      rw [List.filterMap_cons_some hdemand] at hidle
      cases hidle
    | none =>
      rw [List.filterMap_cons_none hdemand] at hidle
      obtain ⟨hwork, hreplies⟩ := ih hidle
      obtain ⟨hlatest, hsame⟩ := sameWork_idle settings o hdemand earlier
      exact ⟨hlatest.trans hwork, hsame.trans hreplies⟩

variable {settings o} in
/-- **The latest demand:** the requests after it leave the work as it is. -/
theorem exists_latest {requests : List (Request ι κ)} {what : Demand ι κ}
    {demands : List (Demand ι κ)}
    (hdemands : requests.filterMap Request.demand? = what :: demands)
    (hsaved : o.AllSaved settings requests) :
    ∃ clock earlier, earlier.filterMap Request.demand? = demands ∧
      o.AllSaved settings (.demand clock what :: earlier) ∧
      (o.after settings requests).SameWork (o.after settings (.demand clock what :: earlier)) ∧
      o.replies settings requests = o.replies settings (.demand clock what :: earlier) := by
  induction requests with
  | nil => cases hdemands
  | cons request earlier ih =>
    cases hdemand : request.demand? with
    | some what' =>
      rw [List.filterMap_cons_some hdemand] at hdemands
      obtain ⟨rfl, hrest⟩ := List.cons.inj hdemands
      cases request with
      | demand clock =>
        cases hdemand
        exact ⟨clock, earlier, hrest, hsaved, .withDesk _ _, rfl⟩
      | enterStart => cases hdemand
      | enterExit => cases hdemand
      | enterCalculation => cases hdemand
      | clearTrace => cases hdemand
    | none =>
      rw [List.filterMap_cons_none hdemand] at hdemands
      obtain ⟨clock, before, hbefore, hall, hwork, hreplies⟩ := ih hdemands hsaved.earlier
      obtain ⟨hlatest, hsame⟩ := sameWork_idle settings o hdemand earlier
      exact ⟨clock, before, hbefore, hall, hlatest.trans hwork, hsame.trans hreplies⟩

end Idle

/-! ### Demands -/

namespace SameWork

variable {o o' : Office ι κ}

/-- **The step of a demand** in two offices, at two times. -/
theorem respond (h : o.SameWork o') {n : Nat} {level : String} (clock clock' : Readings)
    {what : Demand ι κ} (hd : o.CanSave settings what)
    (hd' : o'.CanSave (settings.observedBy n level) what) :
    (o.respond settings clock what).2.SameWork
        (o'.respond (settings.observedBy n level) clock' what).2 ∧
      (o.respond settings clock what).1.map Reply.untimed =
        (o'.respond (settings.observedBy n level) clock' what).1.map Reply.untimed := by
  have hcourse : ∀ line, courseOf settings line = courseOf (settings.observedBy n level) line :=
    fun _ => rfl
  cases what with
  | press i symbol =>
    obtain ⟨d, hrespond, -, hhistory⟩ := exists_press clock hd
    obtain ⟨d', hrespond', -, hhistory'⟩ := exists_press clock' hd'
    have hpressed : (o.sessions i).pressed settings symbol =
        (o'.sessions i).pressed (settings.observedBy n level) symbol := by
      rw [h.sessions_eq]
      rfl
    have hrecorded : d.history.SameColumns d'.history := by
      rw [hhistory, hhistory', h.sessions_eq, h.historyOf_eq]
      unfold Session.keyRecording
      split
      · exact (h.histories _).recording (hcourse _) clock clock'
      · exact h.histories _
    rw [hrespond, hrespond', hpressed, h.sessions_eq, h.historyOf_eq]
    exact ⟨⟨rfl, h.historyOf_eq, (h.putAway hrecorded).histories⟩, rfl⟩
  | evaluate k e =>
    obtain ⟨d, hrespond, -, hhistory⟩ := exists_evaluate clock hd
    obtain ⟨d', hrespond', -, hhistory'⟩ := exists_evaluate clock' hd'
    have hrecorded : d.history.SameColumns d'.history := by
      rw [hhistory, hhistory']
      exact (h.histories k).recording (hcourse _) clock clock'
    rw [hrespond, hrespond', hcourse]
    refine ⟨h.putAway hrecorded, ?_⟩
    cases courseOf (settings.observedBy n level) e.expression with
    | error fault => rfl
    | ok course =>
      exact congrArg (Except.ok ∘ Reply.evaluated)
        (course.untimed_evaluation settings clock clock' e.expression)
  | calculate line => exact ⟨⟨h.sessions_eq, h.historyOf_eq, h.histories⟩, rfl⟩

/-- **The run of the demands.** -/
theorem after {n : Nat} {level : String} (h : o.SameWork o') (demands : List (Demand ι κ)) :
    ∀ {requests requests' : List (Request ι κ)},
      requests.filterMap Request.demand? = demands →
      requests'.filterMap Request.demand? = demands →
      o.AllSaved settings requests → o'.AllSaved (settings.observedBy n level) requests' →
        (o.after settings requests).SameWork
            (o'.after (settings.observedBy n level) requests') ∧
          (o.replies settings requests).map (·.map Reply.untimed) =
            (o'.replies (settings.observedBy n level) requests').map (·.map Reply.untimed) := by
  induction demands with
  | nil =>
    intro requests requests' hdemands hdemands' _ _
    obtain ⟨hwork, hreplies⟩ := sameWork_of_no_demand settings o hdemands
    obtain ⟨hwork', hreplies'⟩ :=
      sameWork_of_no_demand (settings.observedBy n level) o' hdemands'
    exact ⟨hwork.trans (h.trans hwork'.symm), by rw [hreplies, hreplies']⟩
  | cons what demands ih =>
    intro requests requests' hdemands hdemands' hsaved hsaved'
    obtain ⟨clock, earlier, hrest, hall, hwork, hreplies⟩ := exists_latest hdemands hsaved
    obtain ⟨clock', earlier', hrest', hall', hwork', hreplies'⟩ := exists_latest hdemands' hsaved'
    obtain ⟨hbefore, hsame⟩ := ih hrest hrest' hall.2 hall'.2
    obtain ⟨hstep, hreply⟩ := hbefore.respond clock clock' (canSave_of_respond hall.1)
      (canSave_of_respond hall'.1)
    refine ⟨hwork.trans (hstep.trans hwork'.symm), ?_⟩
    rw [hreplies, hreplies', replies, replies, List.map_cons, List.map_cons, hreply, hsame]

end SameWork

end Office

/-- **Observation takes no part:** two offices whose sessions are the same, and whose histories tell
the same, are asked the same demands in the same order. Then they reply the same and end with the
same sessions and with histories that tell the same, if all saves succeed. Traces, journals and
files may be any, and so may the limit of the trace, the level of the journal, the times at which
each demand is met and what is asked about the trace in between. -/
theorem observation_free {ι κ : Type} [DecidableEq ι] [DecidableEq κ] {settings : Settings}
    {n : Nat} {level : String} {o o' : Office ι κ} (hstart : o.SameWork o')
    {requests requests' : List (Request ι κ)}
    (hdemands : requests.filterMap Request.demand? = requests'.filterMap Request.demand?)
    (hsaved : o.AllSaved settings requests)
    (hsaved' : o'.AllSaved (settings.observedBy n level) requests') :
    (o.after settings requests).SameWork (o'.after (settings.observedBy n level) requests') ∧
      (o.replies settings requests).map (·.map Reply.untimed) =
        (o'.replies (settings.observedBy n level) requests').map (·.map Reply.untimed) :=
  hstart.after _ rfl hdemands.symm hsaved hsaved'

/-- A clock that stands still at another midnight, and a calculation that takes a long time. -/
def Readings.newYear : Readings :=
  (⟨⟨⟨2026, 1, 1, by decide, by decide, by decide, by decide⟩, .midnight, none⟩, thousand⟩ : Clock)

/-- The key `=` is pressed, and the trace is cleared. -/
def pressedAndCleared : List (Request Unit Unit) :=
  [.clearTrace, .demand .newYear (.press () "="),
    .enterExit Readings.newYear.begun "evaluate" (.ofString "2")]

theorem observation_free_cleared : ∃ o o' : Office Unit Unit,
    o = .single "7-9" (.empty 3) ∧ o' = .single "7-9" (.empty 0) ∧ o.SameWork o' ∧
    [Request.demand .midnight (.press () "=")].filterMap Request.demand? =
      pressedAndCleared.filterMap Request.demand? ∧
    o.AllSaved .standard [.demand .midnight (.press () "=")] ∧
    o'.AllSaved (Settings.standard.observedBy 0 "DEBUG") pressedAndCleared ∧
    (o.after .standard [.demand .midnight (.press () "=")]).SameWork
      (o'.after (Settings.standard.observedBy 0 "DEBUG") pressedAndCleared) ∧
    ((o.after .standard [.demand .midnight (.press () "=")]).sessions ()).display.text = "-2" ∧
    ((o.after .standard [.demand .midnight (.press () "=")]).histories ()).entries.length = 1 := by
  have hstart : (Office.single "7-9" (.empty 3)).SameWork (.single "7-9" (.empty 0)) :=
    ⟨rfl, rfl, fun _ => .refl _⟩
  have hdemands : [Request.demand .midnight (.press () "=")].filterMap Request.demand? =
      pressedAndCleared.filterMap Request.demand? := rfl
  have hsaved : (Office.single "7-9" (.empty 3)).AllSaved .standard
      [.demand .midnight (.press () "=")] := (Office.inMemory_single _ _).allSaved _
  have hsaved' : (Office.single "7-9" (.empty 0)).AllSaved
      (Settings.standard.observedBy 0 "DEBUG") pressedAndCleared :=
    (Office.inMemory_single _ _).allSaved _
  obtain ⟨hwork, -⟩ := observation_free hstart hdemands hsaved hsaved'
  exact ⟨_, _, rfl, rfl, hstart, hdemands, hsaved, hsaved', hwork, by decide +kernel,
    by decide +kernel⟩

end PocketCalculator
