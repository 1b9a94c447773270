import PocketCalculator.Proofs.Changes
import PocketCalculator.Proofs.InMemory

/-! # How an evaluation ends

Whatever the settings are, a line takes a course or its calculation is stopped by a fault, which
can only be that a value has no double of the wanted number of places (`courseOf`). Either way the
line alone decides what the evaluation comes to, what the trace is told (`lineRecords`) and what
becomes of the history (`History.recording`), unless the history cannot be written
(`Evaluation.run_ends`). Whether it can be written does not depend on what it holds: so an
evaluation that reports no fault of the files had a history that could be written
(`Evaluation.canSave_of_run`). -/

namespace PocketCalculator

variable {settings : Settings}

/-- **The course of a line,** or the fault that stops its calculation. -/
def courseOf (settings : Settings) (line : String) : Except Fault Course :=
  if isBlankText line = true ∨ line = settings.errorTag then .ok .skipped
  else if settings.maxExpressionLength < line.length then .ok .refused
  else
    match calculate settings line with
    | .ok (.value v) => .ok (.calculated v)
    | .ok (.failed kind _) => .ok (.failed kind)
    | .error fault => .error fault

/-- **What the trace is told** of a line; of one that is stopped, only that it was begun. -/
def lineRecords (settings : Settings) (clock : Readings) (line : String) : List TraceRecord :=
  match courseOf settings line with
  | .ok course => course.records settings clock line
  | .error _ => [⟨clock.begun, .entry Stage.evaluate.name (.ofString (leading 50 line))⟩]

/-- A history after a line was evaluated. -/
def History.recording (settings : Settings) (clock : Readings) (line : String) (h : History) :
    History :=
  match courseOf settings line with
  | .ok (.calculated v) => h.insert (.ofTexts clock.recorded line v.shown)
  | _ => h

theorem History.path_recording (clock : Readings) (line : String) (h : History) :
    (h.recording settings clock line).path = h.path := by
  unfold recording
  split <;> rfl

/-! ### Lines and results of a history -/

/-- What an entry tells apart from its time: the line and the result. -/
def Entry.columns (e : Entry) : Json × Json := (e.expression, e.result)

/-- **Histories that tell the same,** whatever times they tell: lines and results in the same order,
and room for as many. -/
structure History.SameColumns (h h' : History) : Prop where
  capacity_eq : h.capacity = h'.capacity
  columns_eq : h.entries.map Entry.columns = h'.entries.map Entry.columns

namespace History.SameColumns

variable {h h' h'' : History}

theorem refl (h : History) : h.SameColumns h := ⟨rfl, rfl⟩

theorem symm (hsame : h.SameColumns h') : h'.SameColumns h :=
  ⟨hsame.capacity_eq.symm, hsame.columns_eq.symm⟩

theorem trans (hsame : h.SameColumns h') (hsame' : h'.SameColumns h'') : h.SameColumns h'' :=
  ⟨hsame.capacity_eq.trans hsame'.capacity_eq, hsame.columns_eq.trans hsame'.columns_eq⟩

theorem insert (hsame : h.SameColumns h') {e e' : Entry} (he : e.columns = e'.columns) :
    (h.insert e).SameColumns (h'.insert e') where
  capacity_eq := hsame.capacity_eq
  columns_eq := by
    rw [entries_insert, entries_insert, List.map_take, List.map_take, List.map_cons, List.map_cons,
      he, hsame.columns_eq, hsame.capacity_eq]

theorem recording (hsame : h.SameColumns h') {settings' : Settings} {line : String}
    (hcourse : courseOf settings line = courseOf settings' line) (clock clock' : Readings) :
    (h.recording settings clock line).SameColumns (h'.recording settings' clock' line) := by
  unfold History.recording
  rw [hcourse]
  split
  · exact hsame.insert rfl
  · exact hsame

end History.SameColumns

/-! ### The course as a function -/

section Course
variable {line : String}

theorem courseOf_of_letThrough (h : LetThrough settings line) :
    courseOf settings line =
      match calculate settings line with
      | .ok (.value v) => .ok (.calculated v)
      | .ok (.failed kind _) => .ok (.failed kind)
      | .error fault => .error fault := by
  have hblank : ¬ isBlankText line = true := by
    rw [h.not_blank]
    decide
  rw [courseOf, if_neg (not_or.mpr ⟨hblank, h.ne_errorTag⟩), if_neg (Int.not_lt.mpr h.length_le)]

theorem Takes.courseOf_eq {course : Course} (h : Takes settings line course) :
    courseOf settings line = .ok course := by
  cases h with
  | skipped h => exact if_pos h
  | refused hblank htag hlong =>
    have hblank : ¬ isBlankText line = true := by
      rw [hblank]
      decide
    rw [courseOf, if_neg (not_or.mpr ⟨hblank, htag⟩), if_pos hlong]
  | failed hlet hcalc => rw [courseOf_of_letThrough hlet, hcalc]
  | calculated hlet hcalc => rw [courseOf_of_letThrough hlet, hcalc]

/-- A line takes its course, or it is let through and stopped. -/
theorem courseOf_cases (settings : Settings) (line : String) :
    (∃ course, courseOf settings line = .ok course ∧ Takes settings line course) ∨
      ∃ fault, courseOf settings line = .error fault ∧ LetThrough settings line ∧
        calculate settings line = .error fault := by
  by_cases hskip : isBlankText line = true ∨ line = settings.errorTag
  · exact .inl ⟨_, Takes.courseOf_eq (.skipped hskip), .skipped hskip⟩
  obtain ⟨hblank, htag⟩ := not_or.mp hskip
  rw [Bool.not_eq_true] at hblank
  by_cases hlong : settings.maxExpressionLength < line.length
  · exact .inl ⟨_, Takes.courseOf_eq (.refused hblank htag hlong), .refused hblank htag hlong⟩
  have hlet : LetThrough settings line := ⟨hblank, htag, by omega⟩
  cases hcalc : calculate settings line with
  | ok outcome =>
    cases outcome with
    | value v =>
      exact .inl ⟨_, Takes.courseOf_eq (.calculated hlet hcalc), .calculated hlet hcalc⟩
    | failed kind cause =>
      exact .inl ⟨_, Takes.courseOf_eq (.failed hlet hcalc), .failed hlet hcalc⟩
  | error fault => exact .inr ⟨fault, by rw [courseOf_of_letThrough hlet, hcalc], hlet, rfl⟩

theorem takes_of_courseOf {course : Course} (h : courseOf settings line = .ok course) :
    Takes settings line course := by
  obtain ⟨course', hcourse, htakes⟩ | ⟨fault, hfault, -⟩ := courseOf_cases settings line
  · obtain rfl := Except.ok.inj (hcourse.symm.trans h)
    exact htakes
  · rw [hfault] at h
    cases h

end Course

/-! ### One line -/

namespace Evaluation

theorem run_of_letThrough (clock : Readings) (e : Evaluation) (d : Desk)
    (hlet : LetThrough settings e.expression) :
    e.run settings clock d = (start e.expression).complete settings clock
      (d.note (guardStageNotes settings e.expression)) := by
  unfold run
  rw [show e.prepare = start e.expression from rfl, guard_of_letThrough hlet]
  rfl

theorem run_stopped (clock : Readings) (e : Evaluation) (d : Desk) {fault : Fault}
    (hlet : LetThrough settings e.expression)
    (hcalc : calculate settings e.expression = .error fault) :
    ∃ d', e.run settings clock d = (.error fault, d') ∧ d'.history = d.history ∧
      d'.trace = d.trace.log
        ⟨clock.begun, .entry Stage.evaluate.name (.ofString (leading 50 e.expression))⟩ := by
  rw [run_of_letThrough clock e d hlet]
  simp only [complete, evaluate, show (start e.expression).expression = e.expression from rfl,
    hcalc]
  exact ⟨_, rfl, rfl, rfl⟩

/-- **How an evaluation ends,** if the history can be written where there is something to record. -/
theorem run_ends (clock : Readings) (e : Evaluation) {d : Desk}
    (hd : ∀ v, courseOf settings e.expression = .ok (.calculated v) → d.CanSave) :
    ∃ d', e.run settings clock d =
        ((courseOf settings e.expression).map (Course.evaluation settings clock e.expression), d') ∧
      d'.trace = (lineRecords settings clock e.expression).foldl Trace.log d.trace ∧
      d'.history = d.history.recording settings clock e.expression := by
  obtain ⟨course, hcourse, htakes⟩ | ⟨fault, hcourse, hlet, hcalc⟩ :=
    courseOf_cases settings e.expression
  · obtain ⟨d', hrun, htrace, hkept, hrecorded⟩ := e.run_follows clock (d := d)
      (fun v hv => hd v (by rw [hcourse, hv])) htakes
    refine ⟨d', by rw [hrun, hcourse]; rfl, by rw [lineRecords, hcourse]; exact htrace, ?_⟩
    rw [History.recording, hcourse]
    cases course with
    | calculated v => exact (hrecorded v rfl).1
    | skipped => exact (hkept fun _ => nofun).1
    | refused => exact (hkept fun _ => nofun).1
    | failed kind => exact (hkept fun _ => nofun).1
  · obtain ⟨d', hrun, hhistory, htrace⟩ := e.run_stopped clock d hlet hcalc
    refine ⟨d', by rw [hrun, hcourse]; rfl, by rw [lineRecords, hcourse]; exact htrace, ?_⟩
    rw [History.recording, hcourse]
    exact hhistory

end Evaluation

/-! ### Files -/

/-- **A result that no file stood in the way of.** -/
def Unhindered {α : Type} (x : Except Fault α) : Prop := ∀ cause, x ≠ .error (.file cause)

theorem unhindered_map {α β : Type} {f : α → β} {x : Except Fault α} :
    Unhindered (x.map f) ↔ Unhindered x := by
  cases x with
  | ok a => exact ⟨fun _ _ => nofun, fun _ _ => nofun⟩
  | error fault =>
    have hinj : ∀ {γ : Type}, Unhindered (.error fault : Except Fault γ) ↔
        ∀ cause, fault ≠ .file cause :=
      ⟨fun h cause hfault => h cause (congrArg _ hfault),
        fun h cause hfault => h cause (Except.error.inj hfault)⟩
    exact hinj.trans hinj.symm

theorem unhindered_calculate (line : String) : Unhindered (calculate settings line) := by
  intro cause h
  unfold calculate at h
  repeat' split at h
  all_goals cases h

theorem unhindered_courseOf (line : String) : Unhindered (courseOf settings line) := by
  obtain ⟨course, hcourse, -⟩ | ⟨fault, hfault, -, hcalc⟩ := courseOf_cases settings line
  · rw [hcourse]
    exact fun _ => nofun
  · intro cause h
    obtain rfl := Except.error.inj (hfault.symm.trans h)
    exact unhindered_calculate line cause hcalc

theorem FileTree.snd_write (t : FileTree) (path : Path) (content content' : ByteArray) :
    (t.write path content).2 = (t.write path content').2 := by
  unfold write
  cases t.makeFolders path.parent with
  | mk made outcome =>
    cases outcome with
    | error fault => rfl
    | ok =>
      simp only
      cases made.resolve path.names with
      | error fault => rfl
      | ok place =>
        simp only
        cases made.at? place with
        | none => rfl
        | some node => cases node <;> rfl

namespace Desk

/-- A history that can be written with some entries can be written with any. -/
theorem canSave_of_save {d : Desk} {entries : List Entry}
    (h : (History.save { d.history with entries := entries } d.files).2 = .ok ()) :
    d.CanSave := by
  intro others
  refine ⟨(History.save { d.history with entries := others } d.files).1, Prod.ext rfl ?_⟩
  unfold History.save at h ⊢
  simp only at h ⊢
  split
  · rfl
  · next path hpath =>
    rw [hpath] at h
    exact (FileTree.snd_write ..).trans h

theorem canSave_of_record {d : Desk} (entry : Entry)
    (h : Unhindered (d.record entry).1) : d.CanSave := by
  obtain ⟨outcome, hsave, hfault⟩ := save_record d entry
  cases outcome with
  | ok => exact canSave_of_save (congrArg Prod.snd hsave)
  | error cause => exact absurd hfault (h cause)

end Desk

/-- **An evaluation without a fault of the files** has a history that can be written, if it has
something to record. -/
theorem Evaluation.canSave_of_run (clock : Readings) {e : Evaluation} {d : Desk}
    (h : Unhindered (e.run settings clock d).1) {v : Binary64}
    (hcourse : courseOf settings e.expression = .ok (.calculated v)) : d.CanSave := by
  cases takes_of_courseOf hcourse with
  | calculated hlet hcalc =>
    obtain ⟨d₁, heval, hhistory, hfiles, -⟩ := evaluate_of_outcome clock e.expression
      (d.note (guardStageNotes settings e.expression)) hcalc
    rw [run_of_letThrough clock e d hlet] at h
    -- a record that fails is where the evaluation ends
    have hrecorded : d₁.CanSave := by
      refine Desk.canSave_of_record (.ofTexts clock.recorded e.expression v.shown)
        fun cause hfails => h cause ?_
      have hrecord : ((start e.expression).withOutcome (.value v)).record clock d₁ =
          (.error (.file cause), (d₁.record (.ofTexts clock.recorded e.expression v.shown)).2) := by
        simp only [withOutcome, start, record]
        rw [show d₁.record _ = (_, _) from Prod.ext hfails rfl]
      simp only [complete, heval, hrecord]
    intro entries
    have hsaved := hrecorded entries
    rw [hhistory, hfiles] at hsaved
    exact hsaved

/-! ### One key -/

namespace Session

/-- **The session that a key leads to,** or the fault that stops it. -/
def pressed (settings : Settings) (s : Session) (symbol : String) : Except Fault Session :=
  match actionOf? symbol with
  | none => .error (.unknownKey symbol)
  | some .evaluate =>
    (courseOf settings s.display.text).map fun course =>
      s.showing (course.shown settings s.display.text)
  | some action => .ok (s.afterKey settings symbol action)

/-- What the trace is told of a key. -/
def keyRecords (settings : Settings) (clock : Readings) (s : Session) (symbol : String) :
    List TraceRecord :=
  if symbol = "=" then lineRecords settings clock s.display.text else []

/-- A history after a key. -/
def keyRecording (settings : Settings) (clock : Readings) (s : Session) (symbol : String)
    (h : History) : History :=
  if symbol = "=" then h.recording settings clock s.display.text else h

theorem path_keyRecording (clock : Readings) (s : Session) (symbol : String) (h : History) :
    (s.keyRecording settings clock symbol h).path = h.path := by
  unfold keyRecording
  split
  · exact h.path_recording clock _
  · rfl

/-- A key that evaluates a line with something to record. -/
def Calculates (settings : Settings) (s : Session) (symbol : String) : Prop :=
  symbol = "=" ∧ ∃ v, courseOf settings s.display.text = .ok (.calculated v)

theorem evaluate_ends (clock : Readings) (s : Session) {d : Desk}
    (hd : ∀ v, courseOf settings s.display.text = .ok (.calculated v) → d.CanSave) :
    ∃ d', s.evaluate settings clock d =
        ⟨(s.pressed settings "=").map fun _ => (), (s.pressed settings "=").toOption.getD s, d'⟩ ∧
      d'.trace = (lineRecords settings clock s.display.text).foldl Trace.log d.trace ∧
      d'.history = d.history.recording settings clock s.display.text := by
  obtain ⟨d', hrun, htrace, hhistory⟩ :=
    (Evaluation.start s.display.text).run_ends clock (d := d) hd
  refine ⟨d', ?_, htrace, hhistory⟩
  rw [evaluate, hrun, show (Evaluation.start s.display.text).expression = s.display.text from rfl,
    pressed, show actionOf? "=" = some .evaluate from rfl]
  cases courseOf settings s.display.text with
  | error fault => rfl
  | ok course => cases course <;> rfl

/-- **How a key ends,** if the history can be written where there is something to record. -/
theorem press_ends (clock : Readings) (s : Session) {d : Desk} {symbol : String}
    (hd : s.Calculates settings symbol → d.CanSave) :
    ∃ d', s.press settings clock d symbol =
        ⟨(s.pressed settings symbol).map fun _ => (),
          (s.pressed settings symbol).toOption.getD s, d'⟩ ∧
      d'.trace = (s.keyRecords settings clock symbol).foldl Trace.log d.trace ∧
      d'.history = s.keyRecording settings clock symbol d.history := by
  by_cases heq : symbol = "="
  · subst heq
    obtain ⟨d', heval, htrace, hhistory⟩ := evaluate_ends clock s
      (d := d.note (keyNotes "=" .evaluate)) fun v hv => hd ⟨rfl, v, hv⟩
    refine ⟨d', heval, ?_, ?_⟩
    · rw [keyRecords, if_pos rfl]
      exact htrace
    · rw [keyRecording, if_pos rfl]
      exact hhistory
  · rw [keyRecords, if_neg heq, keyRecording, if_neg heq]
    unfold press pressed
    cases ha : actionOf? symbol with
    | none => exact ⟨d, rfl, rfl, rfl⟩
    | some action =>
      cases action with
      | evaluate => exact absurd (actionOf?_eq_evaluate_iff.mp ha) heq
      | appendDigit => exact ⟨_, rfl, rfl, rfl⟩
      | appendOperator => exact ⟨_, rfl, rfl, rfl⟩
      | clear => exact ⟨_, rfl, rfl, rfl⟩
      | toggleHistory => exact ⟨_, rfl, rfl, rfl⟩

theorem canSave_of_press (clock : Readings) {s : Session} {d : Desk} {symbol : String}
    (h : Unhindered (s.press settings clock d symbol).result) :
    s.Calculates settings symbol → d.CanSave := by
  rintro ⟨rfl, v, hcourse⟩
  refine Evaluation.canSave_of_run clock (e := .start s.display.text)
    (d := d.note (keyNotes "=" .evaluate)) (fun cause hrun => h cause ?_) hcourse
  have heval : s.press settings clock d "=" =
      s.evaluate settings clock (d.note (keyNotes "=" .evaluate)) := rfl
  rw [heval, evaluate, show (Evaluation.start s.display.text).run settings clock _ = (_, _) from
    Prod.ext hrun rfl]

theorem unhindered_pressed (s : Session) (symbol : String) :
    Unhindered (s.pressed settings symbol) := by
  unfold pressed
  split
  · exact fun _ => nofun
  · exact unhindered_map.mpr (unhindered_courseOf _)
  · exact fun _ => nofun

end Session

end PocketCalculator
