import PocketCalculator.Proofs.Office

/-! # What the trace holds

Every request tells the trace something (`Office.told`): an evaluated line the records of its course
(`lineRecords_cases`), which are none, one or four, a key those of the line that it evaluates, and a
record entered by hand itself. The trace takes them up one by one and lets the oldest go, so that
the limit may fall between the records of one line; what it holds in the end is the last part of all
that was told since it was cleared (`trace_contents`). The step is that of a row of records
(`Trace.foldl_log`): what was let go would not be among the last ones later either. -/

namespace PocketCalculator

/-! ### The last elements of a list -/

theorem lastOf_lastOf_append {α : Type} (n : Nat) (a b : List α) :
    lastOf n (lastOf n a ++ b) = lastOf n (a ++ b) := by
  have hshort : a.length - n ≤ a.length := Nat.sub_le _ _
  unfold lastOf
  rw [← List.drop_append_of_le_length hshort, List.drop_drop, List.length_drop, List.length_append]
  congr 1
  omega

theorem Trace.foldl_log : ∀ (rs : List TraceRecord) {t : Trace} {told : List TraceRecord},
    t.records = lastOf t.limit told →
      (rs.foldl log t).limit = t.limit ∧
        (rs.foldl log t).records = lastOf t.limit (told ++ rs)
  | [], t, told, h => ⟨rfl, by rw [List.append_nil]; exact h⟩
  | r :: rs, t, told, h => by
    have hstep : (t.log r).records = lastOf (t.log r).limit (told ++ [r]) := by
      rw [log, h]
      exact lastOf_lastOf_append _ _ _
    obtain ⟨hlimit, hrecords⟩ := foldl_log rs hstep
    refine ⟨hlimit, ?_⟩
    rw [List.foldl_cons, hrecords, List.append_assoc, List.singleton_append]
    rfl

namespace Office

variable {ι κ : Type} {settings : Settings}

/-- **What a request tells the trace.** -/
def told (settings : Settings) (o : Office ι κ) : Request ι κ → List TraceRecord
  | .demand clock (.press i symbol) => (o.sessions i).keyRecords settings clock symbol
  | .demand clock (.evaluate _ e) => lineRecords settings clock e.expression
  | .demand _ (.calculate _) => []
  | .enterStart now step expression =>
    (expression.leading? 50).toList.map fun kept => ⟨now, .entry step kept⟩
  | .enterExit now step display => [⟨now, .exit step display⟩]
  | .enterCalculation now expression result errorKind milliseconds =>
    [⟨now, .calculation expression result errorKind milliseconds⟩]
  | .clearTrace => []

variable [DecidableEq ι] [DecidableEq κ]

/-- **All that was told since the trace was cleared,** the oldest record first. Of the requests the
latest is given first. -/
def toldSinceClear (settings : Settings) (o : Office ι κ) : List (Request ι κ) → List TraceRecord
  | [] => []
  | .clearTrace :: _ => []
  | request :: earlier =>
    o.toldSinceClear settings earlier ++ (o.after settings earlier).told settings request

/-- **The step of a request:** unless it clears the trace, the trace takes up what it is told. -/
theorem trace_meet {o : Office ι κ} {request : Request ι κ} (hclear : request ≠ .clearTrace)
    (hsaved : o.AllSaved settings [request]) :
    (o.meet settings request).desk.trace =
      (o.told settings request).foldl Trace.log o.desk.trace := by
  cases request with
  | demand clock what =>
    have hd : o.CanSave settings what := canSave_of_respond (o := o) hsaved.1
    cases what with
    | press i symbol =>
      obtain ⟨d, hrespond, htrace, -⟩ := exists_press clock hd
      rw [meet, hrespond]
      exact htrace
    | evaluate k e =>
      obtain ⟨d, hrespond, htrace, -⟩ := exists_evaluate clock hd
      rw [meet, hrespond]
      exact htrace
    | calculate line => rfl
  | enterStart now step expression =>
    simp only [meet, told, Desk.markEntryOf?]
    cases expression.leading? 50 <;> rfl
  | enterExit now step display => rfl
  | enterCalculation now expression result errorKind milliseconds => rfl
  | clearTrace => exact absurd rfl hclear

theorem toldSinceClear_cons {o : Office ι κ} {request : Request ι κ}
    (hclear : request ≠ .clearTrace) (earlier : List (Request ι κ)) :
    o.toldSinceClear settings (request :: earlier) =
      o.toldSinceClear settings earlier ++
        (o.after settings earlier).told settings request := by
  cases request with
  | clearTrace => exact absurd rfl hclear
  | demand => rfl
  | enterStart => rfl
  | enterExit => rfl
  | enterCalculation => rfl

theorem trace_after {o : Office ι κ} {n : Nat} (hstart : o.desk.trace = .empty n)
    {requests : List (Request ι κ)} (hsaved : o.AllSaved settings requests) :
    (o.after settings requests).desk.trace.limit = n ∧
      (o.after settings requests).desk.trace.records =
        lastOf n (o.toldSinceClear settings requests) := by
  induction requests with
  | nil =>
    rw [after, hstart, toldSinceClear, lastOf, List.drop_nil]
    exact ⟨rfl, rfl⟩
  | cons request earlier ih =>
    obtain ⟨hlimit, hrecords⟩ := ih hsaved.earlier
    by_cases hclear : request = .clearTrace
    · subst hclear
      refine ⟨hlimit, ?_⟩
      rw [toldSinceClear, lastOf, List.drop_nil]
      rfl
    · rw [← hlimit] at hrecords ⊢
      rw [toldSinceClear_cons hclear, after, trace_meet hclear hsaved.latest]
      exact Trace.foldl_log _ hrecords

end Office

/-- A line tells the records of its course, unless its calculation is stopped, for which the
number of places has to be negative. -/
theorem lineRecords_cases (settings : Settings) (clock : Readings) (line : String) :
    (∃ course, Takes settings line course ∧
      lineRecords settings clock line = course.records settings clock line) ∨
    ∃ fault, calculate settings line = .error fault ∧ settings.displayDecimals < 0 := by
  obtain ⟨course, hcourse, htakes⟩ | ⟨fault, -, -, hcalc⟩ := courseOf_cases settings line
  · exact .inl ⟨course, htakes, by rw [lineRecords, hcourse]⟩
  · refine .inr ⟨fault, hcalc, Int.not_le.mp fun hp => ?_⟩
    obtain ⟨outcome, hok, -⟩ := exists_calculate hp line
    rw [hcalc] at hok
    cases hok

/-- **What the trace holds:** the last of all records that were told since it was cleared, as many
as its limit allows, in their order; the records of calculations among them are listed in the same
order. What an evaluated line tells are the records of its course, unless its calculation is
stopped. -/
theorem trace_contents {ι κ : Type} [DecidableEq ι] [DecidableEq κ] {settings : Settings}
    {o : Office ι κ} {n : Nat} (hstart : o.desk.trace = .empty n)
    {requests : List (Request ι κ)} (hsaved : o.AllSaved settings requests) :
    (o.after settings requests).desk.trace.records =
        lastOf n (o.toldSinceClear settings requests) ∧
      (o.after settings requests).desk.trace.calculations =
        (lastOf n (o.toldSinceClear settings requests)).filter (·.event.isCalculation) ∧
      ∀ clock line,
        (∃ course, Takes settings line course ∧
          lineRecords settings clock line = course.records settings clock line) ∨
        ∃ fault, calculate settings line = .error fault ∧ settings.displayDecimals < 0 := by
  obtain ⟨-, hrecords⟩ := Office.trace_after hstart hsaved
  exact ⟨hrecords, by rw [Trace.calculations, hrecords], lineRecords_cases settings⟩

/-! ### A limit among the records of a line -/

/-- The end of a step is entered, the trace is cleared, and the key `=` is pressed. -/
def clearedAndPressed : List (Request Unit Unit) :=
  [.demand .midnight (.press () "="), .clearTrace,
    .enterExit Readings.midnight.begun "evaluate" (.ofString "2")]

theorem trace_contents_cleared : ∃ (o : Office Unit Unit) (calculation : TraceRecord),
    o = .single "1/0" (.empty 3) ∧ o.desk.trace = .empty 3 ∧
    calculation =
      ⟨Readings.midnight.calculated,
        .calculation "1/0" none (some "division_by_zero") Readings.midnight.milliseconds⟩ ∧
    o.AllSaved .standard clearedAndPressed ∧
    (o.after .standard clearedAndPressed).desk.trace.records =
      [calculation, ⟨Readings.midnight.ended, .exit "evaluate" .null⟩,
        ⟨Readings.midnight.finished, .exit "finalize" (.ofString "Error")⟩] ∧
    (o.after .standard clearedAndPressed).desk.trace.calculations = [calculation] := by
  have hlet : LetThrough .standard "1/0" := ⟨by decide, by decide, by decide⟩
  have hcalc : calculate .standard "1/0" = .ok (.failed .divisionByZero .divisionByZero) :=
    eq_ok_of_toOption (by decide +kernel)
  have hsaved : (Office.single "1/0" (.empty 3)).AllSaved .standard clearedAndPressed :=
    (Office.inMemory_single _ _).allSaved _
  have htold : (Office.single "1/0" (.empty 3)).toldSinceClear .standard clearedAndPressed =
      (Course.failed .divisionByZero).records .standard .midnight "1/0" := by
    have hrecords : lineRecords .standard .midnight "1/0" =
        (Course.failed .divisionByZero).records .standard .midnight "1/0" := by
      rw [lineRecords, (Takes.failed hlet hcalc).courseOf_eq]
    exact hrecords
  obtain ⟨hrecords, hcalculations, -⟩ := trace_contents rfl hsaved
  rw [htold] at hrecords hcalculations
  exact ⟨_, _, rfl, rfl, rfl, hsaved, hrecords, hcalculations⟩

end PocketCalculator
