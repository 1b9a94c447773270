import PocketCalculator.Prompt
import PocketCalculator.Proofs.Commands
import PocketCalculator.Proofs.DamagedFile

/-! # The front ends agree

A line that the guards let through has one outcome, and all front ends show the same of it
(`FrontEnds`): a session on its display, an evaluation as its text, a command as its last line and
the prompt in its reply, wherever in a conversation the line is typed. Only the prompt also says why
a line has no value. A command opens its history before it looks at its line, so it needs room for
an entry and a file that can be read (`front_ends_agree`, `not_front_ends_agree`). -/

namespace PocketCalculator

open CommandLine (linesText traceSwitch historySwitch)

variable {settings : Settings}

/-! ### Conversations -/

namespace Prompt

/-- What is written while the lines of a text are typed. -/
def written (settings : Settings) (typed : String) : String :=
  (run settings (linesOf typed)).output

theorem linesOf_line {line : String} (h : '\n' ∉ line.toList) (rest : String) :
    linesOf (line ++ "\n" ++ rest) = line :: linesOf rest := by
  have hparts : (line ++ "\n" ++ rest).toList.splitOn '\n' =
      line.toList :: rest.toList.splitOn '\n' := by
    rw [String.toList_append, String.toList_append, List.append_assoc,
      ← List.splitOn_append_cons_self_of_not_mem h]
    rfl
  have hne : (rest.toList.splitOn '\n').map String.ofList ≠ [] :=
    fun h => List.splitOn_ne_nil _ _ (List.map_eq_nil_iff.mp h)
  unfold linesOf
  simp only [hparts, List.map_cons, String.ofList_toList]
  rw [List.getLast?_cons_of_ne_nil hne, List.dropLast_cons_of_ne_nil hne]
  split <;> rfl

theorem linesOf_linesText {lines : List String} (h : ∀ line ∈ lines, '\n' ∉ line.toList)
    (rest : String) : linesOf (linesText lines ++ rest) = lines ++ linesOf rest := by
  induction lines with
  | nil => rw [linesText, List.map_nil, String.join_nil, String.empty_append, List.nil_append]
  | cons line lines ih =>
    rw [linesText, List.map_cons, String.join_cons, ← linesText, String.append_assoc,
      linesOf_line (h line List.mem_cons_self),
      ih fun line hmem => h line (List.mem_cons_of_mem _ hmem), List.cons_append]

/-- **A conversation goes on** behind lines that do not end it: in place of the end of the lines
comes whatever follows the last question. -/
theorem exists_output_append (hp : 0 ≤ settings.displayDecimals) {before : List String}
    (h : ∀ line ∈ before, quits line = false) (lines : List String) :
    ∃ said, (run settings before).output = said ++ question ∧
      (run settings (before ++ lines)).output = said ++ (run settings lines).output := by
  induction before with
  | nil => exact ⟨"", String.empty_append.symm, String.empty_append.symm⟩
  | cons line before ih =>
    obtain ⟨said, hbefore, hall⟩ := ih fun line hmem => h line (List.mem_cons_of_mem _ hmem)
    have hstays := h line List.mem_cons_self
    obtain ⟨outcome, hcalc, -⟩ := exists_calculate hp line
    refine ⟨question ++ answer outcome ++ said, ?_, ?_⟩
    · simp only [run, hstays, hcalc, hbefore, Bool.false_eq_true, if_false, String.append_assoc]
    · simp only [List.cons_append, run, hstays, hcalc, hall, Bool.false_eq_true, if_false,
        String.append_assoc]

theorem exists_reply (settings : Settings) (outcome : Outcome) :
    ∃ reply, answer outcome = reply ++ "\n" ∧
      (∀ v, outcome = .value v → reply = "= " ++ outcome.shown settings) ∧
      ∀ kind cause, outcome = .failed kind cause → reply = "Error: " ++ cause.message := by
  cases outcome with
  | value v => exact ⟨"= " ++ v.shown, rfl, fun _ _ => rfl, fun _ _ h => nomatch h⟩
  | failed kind cause =>
    refine ⟨"Error: " ++ cause.message, rfl, fun _ h => (nomatch h), fun _ _ h => ?_⟩
    cases h
    rfl

end Prompt

/-! ### The front ends -/

/-- **A file that a history can be opened from:** there is none, or it is a text within the limits
of the reader. -/
inductive FileTree.OpensHistory (files : FileTree) (path : Path) : Prop where
  | absent (h : files.read? path = .ok none)
  | text {bytes : ByteArray} (h : files.read? path = .ok (some bytes))
      (hbytes : bytes.IsValidUTF8) (hlimits : ¬ BeyondLimits bytes)

theorem FileTree.OpensHistory.exists_ofFile {files : FileTree} {path : Path}
    (h : files.OpensHistory path) : ∃ found, History.ofFile files path = .ok found := by
  cases h with
  | absent h => exact ⟨_, by simp only [History.ofFile, h]; rfl⟩
  | text h hbytes hlimits =>
    obtain ⟨found, hfound, -⟩ := History.exists_ofFile h hbytes hlimits
    exact ⟨found, hfound⟩

/-- **What the front ends show** of a line with an outcome. A file is written for a value only. -/
structure FrontEnds (settings : Settings) (line : String) (outcome : Outcome) : Prop where
  session (clock : Readings) (s : Session) (d : Desk) (hline : s.display.text = line)
    (hsave : ∀ v, outcome = .value v → d.CanSave) :
    ∃ d', s.evaluate settings clock d = ⟨.ok (), s.showing (outcome.shown settings), d'⟩
  evaluation (clock : Readings) (e : Evaluation) (d : Desk) (hline : e.expression = line)
    (hsave : ∀ v, outcome = .value v → d.CanSave) :
    ∃ e' d', e.run settings clock d = (.ok e', d') ∧
      e'.displayText = some (outcome.shown settings)
  command (clock : Readings) (d : Desk) (htrace : line ≠ traceSwitch)
    (hhistory : line ≠ historySwitch) (hlimit : 1 ≤ settings.historyLimit)
    (hfile : d.files.OpensHistory settings.historyFile)
    (hsave : ∀ v, outcome = .value v → d.files.CanWrite settings.historyFile) :
    ∃ d', CommandLine.act settings clock [line] d =
      (.ok ⟨linesText [outcome.shown settings], none⟩, d')
  prompt (before : List String) (rest : String)
    (hbefore : ∀ l ∈ before, Prompt.quits l = false ∧ '\n' ∉ l.toList)
    (hquits : Prompt.quits line = false) (hone : '\n' ∉ line.toList) :
    ∃ reply, Prompt.written settings (linesText before ++ (line ++ "\n" ++ rest)) =
        Prompt.written settings (linesText before) ++ reply ++ "\n" ++
          Prompt.written settings rest ∧
      (∀ v, outcome = .value v → reply = "= " ++ outcome.shown settings) ∧
      ∀ kind cause, outcome = .failed kind cause → reply = "Error: " ++ cause.message

section Line
variable {line : String} (hlet : LetThrough settings line) {outcome : Outcome}
  (hcalc : calculate settings line = .ok outcome)
include hlet hcalc

theorem LetThrough.exists_takes : ∃ course, Takes settings line course ∧
    course.shown settings line = outcome.shown settings ∧
    (∀ clock, (course.evaluation settings clock line).displayText =
      some (outcome.shown settings)) ∧
    ∀ v, course = .calculated v → outcome = .value v := by
  cases outcome with
  | value v =>
    refine ⟨_, .calculated hlet hcalc, rfl, fun _ => rfl, fun w hw => ?_⟩
    cases hw
    rfl
  | failed kind cause => exact ⟨_, .failed hlet hcalc, rfl, fun _ => rfl, fun _ h => nomatch h⟩

theorem LetThrough.act_single (clock : Readings) {d : Desk} (htrace : line ≠ traceSwitch)
    (hhistory : line ≠ historySwitch) (hlimit : 1 ≤ settings.historyLimit)
    (hfile : d.files.OpensHistory settings.historyFile)
    (hsave : ∀ v, outcome = .value v → d.files.CanWrite settings.historyFile) :
    ∃ d', CommandLine.act settings clock [line] d =
      (.ok ⟨linesText [outcome.shown settings], none⟩, d') := by
  obtain ⟨course, htakes, hshown, -, hvalue⟩ := hlet.exists_takes hcalc
  obtain ⟨found, hfound⟩ := hfile.exists_ofFile
  have hline : CommandLine.expressionOf [line] = line := by
    rw [CommandLine.expressionOf, List.filter_cons_of_pos (by simpa using htrace), List.filter_nil,
      String.intercalate_singleton]
  have hswitch : [line] ≠ [historySwitch] := fun h => hhistory (List.singleton_inj.mp h)
  obtain ⟨d', hact, -⟩ := CommandLine.act_takes hlimit hfound clock (List.cons_ne_nil _ _) hswitch
    (fun v hv => hsave v (hvalue v hv)) (hline.symm ▸ htakes)
  have hmem : traceSwitch ∉ [line] := fun h => htrace (List.mem_singleton.mp h).symm
  refine ⟨d', ?_⟩
  rw [hact, hline, hshown, CommandLine.outputLines, if_neg hmem, List.nil_append]

end Line

theorem Prompt.written_line (hp : 0 ≤ settings.displayDecimals) {line : String}
    {outcome : Outcome} (hcalc : calculate settings line = .ok outcome)
    {before : List String} (hbefore : ∀ l ∈ before, quits l = false ∧ '\n' ∉ l.toList)
    (hquits : quits line = false) (hone : '\n' ∉ line.toList) (rest : String) :
    written settings (linesText before ++ (line ++ "\n" ++ rest)) =
      written settings (linesText before) ++ answer outcome ++ written settings rest := by
  have hlines := linesOf_linesText fun l hl => (hbefore l hl).2
  have hall := hlines (line ++ "\n" ++ rest)
  have hfirst := hlines ""
  rw [linesOf_line hone] at hall
  rw [String.append_empty, show linesOf "" = [] from rfl, List.append_nil] at hfirst
  obtain ⟨said, hasked, hsaid⟩ := exists_output_append hp (fun l hl => (hbefore l hl).1)
    (line :: linesOf rest)
  unfold written
  rw [hall, hfirst, hsaid, hasked]
  simp only [run, hquits, hcalc, Bool.false_eq_true, if_false, String.append_assoc]

/-- **The front ends agree:** whatever a line that the guards let through comes to, a session, an
evaluation, a command and the prompt show the same of it. -/
theorem front_ends_agree (hp : 0 ≤ settings.displayDecimals) {line : String}
    (hlet : LetThrough settings line) :
    ∃ outcome, calculate settings line = .ok outcome ∧ FrontEnds settings line outcome := by
  obtain ⟨outcome, hcalc, -⟩ := exists_calculate hp line
  obtain ⟨course, htakes, hshown, htext, hvalue⟩ := hlet.exists_takes hcalc
  refine ⟨outcome, hcalc, ⟨?_, ?_, ?_, ?_⟩⟩
  · rintro clock s d rfl hsave
    obtain ⟨d', heval, -⟩ := s.evaluate_takes clock (fun v hv => hsave v (hvalue v hv)) htakes
    exact ⟨d', hshown ▸ heval⟩
  · rintro clock e d rfl hsave
    obtain ⟨d', hrun, -⟩ := e.run_follows clock (fun v hv => hsave v (hvalue v hv)) htakes
    exact ⟨_, d', hrun, htext clock⟩
  · intro clock d htrace hhistory hlimit hfile hsave
    exact hlet.act_single hcalc clock htrace hhistory hlimit hfile hsave
  · intro before rest hbefore hquits hone
    obtain ⟨reply, hreply, hwords⟩ := Prompt.exists_reply settings outcome
    refine ⟨reply, ?_, hwords⟩
    rw [Prompt.written_line hp hcalc hbefore hquits hone, hreply]
    simp only [String.append_assoc]

theorem front_ends_agree_difference :
    0 ≤ Settings.standard.displayDecimals ∧ LetThrough .standard "7-9" ∧
      (∃ d', (Session.start ⟨"7-9"⟩).evaluate .standard .midnight .inMemory =
        ⟨.ok (), .start ⟨"-2"⟩, d'⟩) ∧
      (∃ d', CommandLine.act .standard .midnight ["7-9"] .inMemory = (.ok ⟨"-2\n", none⟩, d')) ∧
      Prompt.written .standard "7-9\nq\n" =
        "Enter expression (or 'q' to quit): = -2\nEnter expression (or 'q' to quit): " := by
  have hp : 0 ≤ Settings.standard.displayDecimals := by decide
  have hlet : LetThrough .standard "7-9" := by decide
  have hvalue : calculate .standard "7-9" = .ok (.value (Decimal.toBinary64 ⟨true, 2, 0⟩)) :=
    eq_ok_of_toOption (by decide +kernel)
  have hshown : (Decimal.toBinary64 ⟨true, 2, 0⟩).shown = "-2" := by decide +kernel
  obtain ⟨outcome, hcalc, hfront⟩ := front_ends_agree hp hlet
  obtain rfl := Except.ok.inj (hvalue.symm.trans hcalc)
  refine ⟨hp, hlet, ?_, ?_, ?_⟩
  · obtain ⟨d', heval⟩ := hfront.session .midnight (.start ⟨"7-9"⟩) .inMemory rfl fun _ _ =>
      Desk.canSave_of_path_eq_none rfl
    rw [Outcome.shown, hshown] at heval
    exact ⟨d', heval⟩
  · obtain ⟨d', hact⟩ := hfront.command .midnight .inMemory (by decide) (by decide) (by decide)
      (.absent rfl) fun _ _ => FileTree.canWrite_empty
    rw [Outcome.shown, hshown] at hact
    exact ⟨d', hact⟩
  · obtain ⟨reply, hwritten, hwords, -⟩ := hfront.prompt [] "q\n" (List.forall_mem_nil _)
      (by decide) (by decide)
    rw [hwords _ rfl, Outcome.shown, hshown] at hwritten
    exact hwritten

/-! ### Commands that are stopped by their history -/

/-- **A command shows the outcome of its line,** wherever settings and files are ready for it. -/
def CommandShows (Ready : Settings → FileTree → Prop) : Prop :=
  ∀ (settings : Settings) (line : String) (clock : Readings) (d : Desk),
    0 ≤ settings.displayDecimals → settings.errorTag = "Error" → LetThrough settings line →
      Prompt.quits line = false → '\n' ∉ line.toList → line ≠ traceSwitch →
        line ≠ historySwitch → Ready settings d.files →
          d.files.CanWrite settings.historyFile → ∃ outcome d',
            calculate settings line = .ok outcome ∧
              CommandLine.act settings clock [line] d =
                (.ok ⟨linesText [outcome.shown settings], none⟩, d')

theorem CommandLine.act_of_load_error {clock : Readings} {args : List String} {d : Desk}
    {fault : Fault} (hargs : args ≠ [])
    (h : History.load d.files (some settings.historyFile) settings.historyLimit = .error fault) :
    act settings clock args d = (.error fault, d) := by
  simp only [act, if_neg hargs, Desk.openHistory, h]

theorem not_commandShows {Ready : Settings → FileTree → Prop} (settings : Settings) (d : Desk)
    {fault : Fault} (hp : 0 ≤ settings.displayDecimals) (htag : settings.errorTag = "Error")
    (hlet : LetThrough settings "1+1") (hready : Ready settings d.files)
    (hsave : d.files.CanWrite settings.historyFile)
    (h : History.load d.files (some settings.historyFile) settings.historyLimit = .error fault) :
    ¬ CommandShows Ready := by
  intro hall
  obtain ⟨outcome, d', -, hact⟩ := hall settings "1+1" .midnight d hp htag hlet (by decide)
    (by decide) (by decide) (by decide) hready hsave
  rw [CommandLine.act_of_load_error (List.cons_ne_nil _ _) h] at hact
  cases hact

theorem isWhole_replicate {n : Nat} (hn : n ≠ 0) : IsWhole (List.replicate n '1') where
  ne_nil h := hn (List.replicate_eq_nil_iff _ |>.mp h)
  digits c hc := by
    rw [List.eq_of_mem_replicate hc]
    decide
  zero_alone h := by
    rw [List.head?_replicate, if_neg hn] at h
    cases h

/-- A file of a text in the place of the history. -/
def FileTree.withHistory (text : String) : FileTree :=
  (FileTree.empty.write Settings.standard.historyFile text.toUTF8).1

theorem FileTree.write_withHistory (text : String) :
    FileTree.empty.write Settings.standard.historyFile text.toUTF8 = (withHistory text, .ok ()) :=
  rfl

/-- There is room for an entry, and the file of the history is a text with tokens as described. -/
def HasTokens (P : List JsonToken → Prop) (settings : Settings) (files : FileTree) : Prop :=
  1 ≤ settings.historyLimit ∧ ∃ text : String,
    files.read? settings.historyFile = .ok (some text.toUTF8) ∧ P (Json.scan text.toList)

/-- A text in the place of the history stops a command if it is beyond a limit. -/
theorem not_commandShows_text {P : List JsonToken → Prop} {cs : List Char} (hP : P (Json.scan cs))
    {fault : Fault} (h : History.ofContents (String.ofList cs) = .error fault) :
    ¬ CommandShows (HasTokens P) := by
  have hread := FileTree.read?_of_write (FileTree.write_withHistory (String.ofList cs))
  have hfile : History.ofFile (.withHistory (String.ofList cs)) Settings.standard.historyFile =
      .error fault := by
    simp only [History.ofFile, hread, History.fromUTF8?_toUTF8, h]
  have hload : History.load (.withHistory (String.ofList cs))
      (some Settings.standard.historyFile) Settings.standard.historyLimit = .error fault := by
    simp only [History.load, hfile]
    rfl
  have hready : HasTokens P .standard (.withHistory (String.ofList cs)) :=
    ⟨by decide, _, hread, by rwa [String.toList_ofList]⟩
  exact not_commandShows .standard { Desk.inMemory with files := .withHistory (String.ofList cs) }
    (by decide) rfl (by decide) hready
    (FileTree.canWrite_of_write (FileTree.write_withHistory _)) hload

theorem not_commandShows_tooLong {whole : List Char} (hw : IsWhole whole)
    (hlong : integerDigitLimit < whole.length) :
    ¬ CommandShows (HasTokens fun tokens => ∀ token ∈ tokens, token.level ≤ 0) := by
  refine not_commandShows_text ?_ (History.ofContents_tooLong hw hlong)
  rw [Json.scan_tooLong hw hlong]
  simp [JsonToken.level]

theorem not_commandShows_tooDeep {n : Nat} (h : Json.depthLimit < n) :
    ¬ CommandShows (HasTokens fun tokens => ∀ digits, JsonToken.tooLong digits ∉ tokens) := by
  refine not_commandShows_text ?_ (History.ofContents_tooDeep h)
  intro digits hmem
  rw [Json.scan_openArrays] at hmem
  cases List.eq_of_mem_replicate hmem

/-- **What a command needs of its history:** room for an entry, no whole number of too many digits
in the file, and not too many arrays inside each other. Without any of these, some command does not
show the outcome of its line. -/
theorem not_front_ends_agree :
    (¬ CommandShows fun settings files => files.read? settings.historyFile = .ok none) ∧
      (¬ CommandShows (HasTokens fun tokens => ∀ token ∈ tokens, token.level ≤ 0)) ∧
      ¬ CommandShows (HasTokens fun tokens => ∀ digits, JsonToken.tooLong digits ∉ tokens) := by
  refine ⟨?_, ?_, not_commandShows_tooDeep (Nat.lt_succ_self _)⟩
  · exact not_commandShows { Settings.standard with historyLimit := 0 } .inMemory (by decide) rfl
      (by decide) rfl FileTree.canWrite_empty rfl
  · exact not_commandShows_tooLong (isWhole_replicate (Nat.succ_ne_zero integerDigitLimit))
      (Nat.lt_of_lt_of_eq (Nat.lt_succ_self integerDigitLimit) List.length_replicate.symm)

end PocketCalculator
