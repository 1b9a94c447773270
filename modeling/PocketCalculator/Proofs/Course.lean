import PocketCalculator.Evaluation
import PocketCalculator.Proofs.Outcome

/-! # The course of an evaluation

A line takes one of four courses: it is skipped, refused, fails or is calculated. The line alone
decides which (`Takes`, `exists_takes_iff`), whatever an earlier evaluation has left behind. The
course determines what is known in the end (`Course.evaluation`), what the trace tells of it
(`Course.records`) and what becomes of the history and its file (`Course.Leaves`). There is one
lemma for each stage, and `run_follows` puts them together; `run_course` says all of it at once. -/

namespace PocketCalculator

variable {settings : Settings}

/-! ### Courses -/

/-- **The courses** that an evaluation can take. -/
inductive Course where
  | skipped
  | refused
  | failed (kind : FailureKind)
  | calculated (v : Binary64)

/-- A line that the guards let through. -/
structure LetThrough (settings : Settings) (line : String) : Prop where
  not_blank : isBlankText line = false
  ne_errorTag : line ≠ settings.errorTag
  length_le : (line.length : Int) ≤ settings.maxExpressionLength

/-- **The course of a line.** -/
inductive Takes (settings : Settings) (line : String) : Course → Prop where
  | skipped (h : isBlankText line = true ∨ line = settings.errorTag) :
      Takes settings line .skipped
  | refused (hblank : isBlankText line = false) (htag : line ≠ settings.errorTag)
      (hlong : settings.maxExpressionLength < line.length) : Takes settings line .refused
  | failed (h : LetThrough settings line) {kind : FailureKind} {cause : Failure}
      (hcalc : calculate settings line = .ok (.failed kind cause)) :
      Takes settings line (.failed kind)
  | calculated (h : LetThrough settings line) {v : Binary64}
      (hcalc : calculate settings line = .ok (.value v)) : Takes settings line (.calculated v)

theorem Takes.unique {line : String} {c c' : Course} (h : Takes settings line c)
    (h' : Takes settings line c') : c = c' := by
  have hguards : ∀ hlet : LetThrough settings line,
      isBlankText line = false ∧ line ≠ settings.errorTag ∧
        ¬ settings.maxExpressionLength < line.length := fun hlet =>
    ⟨hlet.not_blank, hlet.ne_errorTag, Int.not_lt.mpr hlet.length_le⟩
  cases h <;> cases h' <;> grind

theorem exists_takes (hp : 0 ≤ settings.displayDecimals) (line : String) :
    ∃ course, Takes settings line course := by
  by_cases hskip : isBlankText line = true ∨ line = settings.errorTag
  · exact ⟨_, .skipped hskip⟩
  obtain ⟨hblank, htag⟩ := not_or.mp hskip
  rw [Bool.not_eq_true] at hblank
  by_cases hlong : settings.maxExpressionLength < line.length
  · exact ⟨_, .refused hblank htag hlong⟩
  have hlet : LetThrough settings line := ⟨hblank, htag, by omega⟩
  obtain ⟨outcome, hcalc, -⟩ := exists_calculate hp line
  cases outcome with
  | value v => exact ⟨_, .calculated hlet hcalc⟩
  | failed kind cause => exact ⟨_, .failed hlet hcalc⟩

/-- **A line takes exactly one course.** -/
theorem exists_takes_iff (hp : 0 ≤ settings.displayDecimals) (line : String) :
    ∃ course, ∀ c, Takes settings line c ↔ c = course := by
  obtain ⟨course, h⟩ := exists_takes hp line
  refine ⟨course, fun c => ⟨fun h' => h'.unique h, ?_⟩⟩
  rintro rfl
  exact h

/-! ### The guards -/

theorem skips_eq_true_iff {line : String} :
    skips settings line = true ↔ isBlankText line = true ∨ line = settings.errorTag := by
  rw [skips, Bool.or_eq_true, beq_iff_eq]

theorem not_skips {line : String} (hblank : isBlankText line = false)
    (htag : line ≠ settings.errorTag) : ¬ skips settings line = true := by
  rw [skips_eq_true_iff, hblank]
  rintro (h | h)
  · cases h
  · exact htag h

theorem isSome_refusal? {line : String} (hlong : settings.maxExpressionLength < line.length) :
    (refusal? settings line).isSome = true := by
  rw [refusal?, if_pos hlong]
  rfl

theorem LetThrough.not_skips {line : String} (h : LetThrough settings line) :
    ¬ skips settings line = true :=
  PocketCalculator.not_skips h.not_blank h.ne_errorTag

theorem LetThrough.not_refused {line : String} (h : LetThrough settings line) :
    ¬ (refusal? settings line).isSome = true := by
  rw [refusal?, if_neg (Int.not_lt.mpr h.length_le)]
  intro hnone
  cases hnone

/-! ### What a course leaves -/

namespace Course

/-- **What is known** of a line in the end. -/
def evaluation (settings : Settings) (clock : Readings) (line : String) : Course → Evaluation
  | skipped => ⟨line, true, none, none, none, none⟩
  | refused =>
    ⟨line, false, none, some FailureKind.invalidExpression.name, some settings.errorTag, none⟩
  | failed kind => ⟨line, false, none, some kind.name, some settings.errorTag, none⟩
  | calculated v =>
    ⟨line, false, some v, none, some v.shown,
      some (Entry.ofTexts clock.recorded line v.shown).toJson⟩

/-- The text that is shown in the end. -/
def shown (settings : Settings) (line : String) : Course → String
  | skipped => line
  | refused | failed _ => settings.errorTag
  | calculated v => v.shown

/-- The record of the end of an evaluation. -/
def finalRecord (clock : Readings) (display : String) : TraceRecord :=
  ⟨clock.finished, .exit Stage.finalize.name (.ofString display)⟩

/-- The records of a calculation, each at a reading of its own. -/
def calculationRecords (clock : Readings) (line : String) (result errorKind : Option String) :
    List TraceRecord :=
  [⟨clock.begun, .entry Stage.evaluate.name (.ofString (leading 50 line))⟩,
    ⟨clock.calculated, .calculation line result errorKind clock.milliseconds⟩,
    ⟨clock.ended, .exit Stage.evaluate.name .null⟩]

/-- **What the trace tells** of a line. -/
def records (settings : Settings) (clock : Readings) (line : String) : Course → List TraceRecord
  | skipped => []
  | refused => [finalRecord clock settings.errorTag]
  | failed kind =>
    calculationRecords clock line none (some kind.name) ++ [finalRecord clock settings.errorTag]
  | calculated v =>
    calculationRecords clock line (some v.shown) none ++ [finalRecord clock v.shown]

/-- **What becomes of the history,** of the files and of the trace. -/
structure Leaves (settings : Settings) (clock : Readings) (line : String) (course : Course)
    (d d' : Desk) : Prop where
  trace_eq : d'.trace = (course.records settings clock line).foldl Trace.log d.trace
  kept : (∀ v, course ≠ .calculated v) → d'.history = d.history ∧ d'.files = d.files
  recorded : ∀ v, course = .calculated v →
    d'.history = d.history.insert (.ofTexts clock.recorded line v.shown) ∧
      d'.history.save d.files = (d'.files, .ok ())

end Course

/-- Whatever entries the history has, it can be written to its file. -/
def Desk.CanSave (d : Desk) : Prop :=
  ∀ entries, ∃ files,
    History.save { d.history with entries := entries } d.files = (files, .ok ())

/-! ### The stages -/

theorem Desk.save_eq {d : Desk} {files : FileTree}
    (h : d.history.save d.files = (files, .ok ())) :
    d.save = (.ok (), { d with files := files }) := by
  unfold save
  rw [h]

theorem Desk.record_of_canSave {d : Desk} (hd : d.CanSave) (entry : Entry) :
    ∃ d' : Desk, d.record entry = (.ok (), d') ∧ d'.history = d.history.insert entry ∧
      d'.history.save d.files = (d'.files, .ok ()) ∧ d'.trace = d.trace := by
  obtain ⟨files, hsave⟩ := hd (d.history.insert entry).entries
  have hsaved := save_eq (d := ({ d with history := d.history.insert entry } : Desk).note
    (evictionNotes d.history)) hsave
  unfold record
  simp only [hsaved]
  exact ⟨_, rfl, rfl, hsave, rfl⟩

namespace Evaluation

theorem evaluate_of_outcome (clock : Readings) (line : String) (d : Desk) {outcome : Outcome}
    (h : calculate settings line = .ok outcome) :
    ∃ d' : Desk, (start line).evaluate settings clock d =
        (.ok ((start line).withOutcome outcome), d') ∧
      d'.history = d.history ∧ d'.files = d.files ∧
      d'.trace = (Course.calculationRecords clock line (outcome.value?.map Binary64.shown)
        (outcome.kind?.map FailureKind.name)).foldl Trace.log d.trace := by
  unfold evaluate
  rw [show (start line).expression = line from rfl, h]
  refine ⟨_, rfl, rfl, rfl, ?_⟩
  cases outcome <;> rfl

theorem finalize_of_text (settings : Settings) (clock : Readings) {e : Evaluation} (d : Desk)
    {text : String}
    (h : e.finalText settings = .ok text) :
    ∃ d' : Desk, e.finalize settings clock d = (.ok { e with displayText := some text }, d') ∧
      d'.history = d.history ∧ d'.files = d.files ∧
      d'.trace = d.trace.log (Course.finalRecord clock text) := by
  unfold finalize
  rw [h]
  exact ⟨_, rfl, rfl, rfl, rfl⟩

theorem complete_failed (clock : Readings) (line : String) (d : Desk) {kind : FailureKind}
    {cause : Failure} (h : calculate settings line = .ok (.failed kind cause)) :
    ∃ d', (start line).complete settings clock d =
        (.ok ((Course.failed kind).evaluation settings clock line), d') ∧
      (Course.failed kind).Leaves settings clock line d d' := by
  obtain ⟨d₁, heval, hh₁, hf₁, ht₁⟩ := evaluate_of_outcome clock line d h
  obtain ⟨d₂, hfinal, hh₂, hf₂, ht₂⟩ := finalize_of_text settings clock
    (e := (start line).withOutcome (.failed kind cause)) d₁ rfl
  refine ⟨d₂, ?_, ?_, fun _ => ⟨hh₂.trans hh₁, hf₂.trans hf₁⟩, fun v hv => by cases hv⟩
  · unfold complete
    rw [heval]
    exact hfinal
  · rw [ht₂, ht₁, Course.records, List.foldl_append]
    rfl

theorem complete_calculated (clock : Readings) (line : String) {d : Desk} (hd : d.CanSave)
    {v : Binary64} (h : calculate settings line = .ok (.value v)) :
    ∃ d', (start line).complete settings clock d =
        (.ok ((Course.calculated v).evaluation settings clock line), d') ∧
      (Course.calculated v).Leaves settings clock line d d' := by
  obtain ⟨d₁, heval, hh₁, hf₁, ht₁⟩ := evaluate_of_outcome clock line d h
  have hd₁ : d₁.CanSave := by
    intro entries
    rw [hh₁, hf₁]
    exact hd entries
  obtain ⟨d₂, hrec, hh₂, hs₂, ht₂⟩ :=
    Desk.record_of_canSave hd₁ (.ofTexts clock.recorded line v.shown)
  have hrecord : ((start line).withOutcome (.value v)).record clock d₁ =
      (.ok { (start line).withOutcome (.value v) with
        historyEntry := some (Entry.ofTexts clock.recorded line v.shown).toJson }, d₂) := by
    simp only [withOutcome, start, record, hrec]
  obtain ⟨d₃, hfinal, hh₃, hf₃, ht₃⟩ := finalize_of_text settings clock
    (e := { (start line).withOutcome (.value v) with
      historyEntry := some (Entry.ofTexts clock.recorded line v.shown).toJson }) d₂ rfl
  refine ⟨d₃, ?_, ?_, fun hne => absurd rfl (hne v), fun w hw => ?_⟩
  · unfold complete
    rw [heval]
    simp only [hrecord]
    exact hfinal
  · rw [ht₃, ht₂, ht₁, Course.records, List.foldl_append]
    rfl
  · cases hw
    rw [hh₃, hf₃, hh₂, hh₁]
    rw [hh₂, hh₁, hf₁] at hs₂
    exact ⟨rfl, hs₂⟩

theorem guard_of_letThrough {line : String} (h : LetThrough settings line) :
    (start line).guard settings = start line :=
  (if_neg h.not_skips).trans (if_neg h.not_refused)

theorem guard_of_refused {line : String} (hblank : isBlankText line = false)
    (htag : line ≠ settings.errorTag) (hlong : settings.maxExpressionLength < line.length) :
    (start line).guard settings =
      { start line with errorKind := some FailureKind.invalidExpression.name } :=
  (if_neg (not_skips hblank htag)).trans (if_pos (isSome_refusal? hlong))

/-- **An evaluation follows the course of its line,** if the history can be written where the course
has something to record. -/
theorem run_follows (clock : Readings) (e : Evaluation) {d : Desk} {course : Course}
    (hd : ∀ v, course = .calculated v → d.CanSave) (h : Takes settings e.expression course) :
    ∃ d', e.run settings clock d =
        (.ok (course.evaluation settings clock e.expression), d') ∧
      course.Leaves settings clock e.expression d d' := by
  unfold run
  rw [show e.prepare = start e.expression from rfl]
  generalize e.expression = line at h ⊢
  -- the notes of the guards reach the journal only, so that nothing below tells the desks apart
  cases h with
  | skipped h =>
    have hguard : (start line).guard settings = { start line with skipped := true } :=
      if_pos (skips_eq_true_iff.mpr h)
    rw [hguard]
    exact ⟨_, rfl, rfl, fun _ => ⟨rfl, rfl⟩, fun v hv => by cases hv⟩
  | refused hblank htag hlong =>
    rw [guard_of_refused hblank htag hlong]
    obtain ⟨d', hfinal, hh, hf, ht⟩ := finalize_of_text settings clock
      (e := { start line with errorKind := some FailureKind.invalidExpression.name })
      (d.note (guardStageNotes settings line)) rfl
    exact ⟨d', hfinal, ht, fun _ => ⟨hh, hf⟩, fun v hv => by cases hv⟩
  | failed hlet hcalc =>
    rw [guard_of_letThrough hlet]
    obtain ⟨d', hrun, ht, hk, hr⟩ :=
      complete_failed clock line (d.note (guardStageNotes settings line)) hcalc
    exact ⟨d', hrun, ht, hk, hr⟩
  | calculated hlet hcalc =>
    rw [guard_of_letThrough hlet]
    obtain ⟨d', hrun, ht, hk, hr⟩ :=
      complete_calculated clock line (d := d.note (guardStageNotes settings line)) (hd _ rfl) hcalc
    exact ⟨d', hrun, ht, hk, hr⟩

theorem run_takes (clock : Readings) (e : Evaluation) {d : Desk} (hd : d.CanSave) {course : Course}
    (h : Takes settings e.expression course) :
    ∃ d', e.run settings clock d =
        (.ok (course.evaluation settings clock e.expression), d') ∧
      course.Leaves settings clock e.expression d d' :=
  e.run_follows clock (fun _ _ => hd) h

end Evaluation

/-! ### The whole evaluation -/

theorem History.entries_insert_of_pos {h : History} (hc : 1 ≤ h.capacity) (e : Entry) :
    (h.insert e).entries = e :: h.entries.take (h.capacity - 1) := by
  obtain ⟨n, hn⟩ := Nat.exists_eq_add_of_le hc
  rw [entries_insert, hn, Nat.add_comm, List.take_succ_cons, Nat.add_sub_cancel]

/-- **The course of an evaluation:** whatever is known before, the line alone decides which of the
four courses it takes, and the evaluation follows it without a fault. A line that is calculated
comes to the front of the history, and the history is written. -/
theorem run_course (hp : 0 ≤ settings.displayDecimals) (clock : Readings) (e : Evaluation)
    {d : Desk} (hc : 1 ≤ d.history.capacity) (hd : d.CanSave) :
    ∃ course d', (∀ c, Takes settings e.expression c ↔ c = course) ∧
      e.run settings clock d = (.ok (course.evaluation settings clock e.expression), d') ∧
      course.Leaves settings clock e.expression d d' ∧
      ∀ v, course = .calculated v → d'.history.entries =
        .ofTexts clock.recorded e.expression v.shown ::
          d.history.entries.take (d.history.capacity - 1) := by
  obtain ⟨course, hcourse⟩ := exists_takes_iff hp e.expression
  obtain ⟨d', hrun, hleaves⟩ := e.run_takes clock hd ((hcourse course).mpr rfl)
  refine ⟨course, d', hcourse, hrun, hleaves, fun v hv => ?_⟩
  rw [(hleaves.recorded v hv).1, History.entries_insert_of_pos hc]

/-- A second of the first minute of a fourth of March. -/
def Timestamp.fourthOfMarch (second : Fin 60) : Timestamp :=
  ⟨⟨2025, 3, 4, by decide, by decide, by decide, by decide⟩,
    ⟨0, 0, second, 0, by decide, by decide, second.isLt, by decide⟩, none⟩

/-- Readings from a midnight on, a second apart. -/
def Readings.midnight : Readings :=
  ⟨.fourthOfMarch 0, .fourthOfMarch 1, .fourthOfMarch 2, .fourthOfMarch 3, .fourthOfMarch 4,
    .zero false⟩

/-- A desk with an empty history of two entries, whose file stands in a folder still to be made. -/
def Desk.filed : Desk :=
  ⟨⟨some ⟨"", ["data", "history.json"]⟩, 2, []⟩, .empty, .empty 200, .start .initial⟩

theorem Desk.canSave_filed : filed.CanSave := fun _ => ⟨_, rfl⟩

/-- The line `7-9` with what a skipped line and a failure would have left behind. -/
def Evaluation.stale : Evaluation :=
  ⟨"7-9", true, none, some FailureKind.divisionByZero.name, some "Error", some .null⟩

theorem run_course_stale :
    0 ≤ Settings.standard.displayDecimals ∧ 1 ≤ Desk.filed.history.capacity ∧
      Desk.filed.CanSave ∧
      ∃ v d', v.shown = "-2" ∧
        Evaluation.stale.run .standard .midnight .filed =
          (.ok ⟨"7-9", false, some v, none, some "-2",
            some (Entry.ofTexts Readings.midnight.recorded "7-9" "-2").toJson⟩, d') ∧
        d'.history.entries = [.ofTexts Readings.midnight.recorded "7-9" "-2"] := by
  have hp : 0 ≤ Settings.standard.displayDecimals := by decide
  have hc : 1 ≤ Desk.filed.history.capacity := by decide
  have hlet : LetThrough .standard "7-9" := ⟨by decide, by decide, by decide⟩
  have hcalc : calculate .standard "7-9" = .ok (.value (Decimal.toBinary64 ⟨true, 2, 0⟩)) :=
    eq_ok_of_toOption (by decide +kernel)
  have hshown : (Decimal.toBinary64 ⟨true, 2, 0⟩).shown = "-2" := by decide +kernel
  obtain ⟨course, d', hcourse, hrun, -, hentries⟩ :=
    run_course hp .midnight .stale hc Desk.canSave_filed
  obtain rfl := (hcourse _).mp (.calculated hlet hcalc)
  refine ⟨hp, hc, Desk.canSave_filed, Decimal.toBinary64 ⟨true, 2, 0⟩, d', hshown, ?_, ?_⟩
  · rw [hrun, Course.evaluation, hshown]
    rfl
  · rw [hentries _ rfl, hshown]
    rfl

end PocketCalculator
