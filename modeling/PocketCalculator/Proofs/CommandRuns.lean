import PocketCalculator.Proofs.Commands

/-! # The history of call after call

Every call of the command is a process of its own: all it knows of the calls before it is the file
of the history. A call whose line is evaluated with success adds its entry to what it finds there,
any other one leaves the files as they are (`exists_perform`). So from no file on, whatever is
called, the file holds the newest entries (`ofFile_filesAfter`), and a call that asks for the
history lists them as they were printed (`history_of_calls`). An entry is read and written once more
by every call that comes after it; its line stays the same. -/

namespace PocketCalculator

open CommandLine (act expressionOf outputLines openedHistory linesText historySwitch)

variable {settings : Settings}

/-- **A call of the command,** with an argument at least, and what the clock shows meanwhile. -/
structure Call where
  args : List String
  args_ne_nil : args ≠ []
  clock : Readings

/-- What lies ready in a new process: nothing but the files. -/
def Desk.ofFiles (settings : Settings) (thresholds : Thresholds) (files : FileTree) : Desk :=
  ⟨⟨none, 1, []⟩, files, .empty settings.traceLimit, .start thresholds⟩

theorem Json.wording_ofString (text : String) : (ofString text).wording = text.toList := by
  rw [← String.toList_inj.mpr (Units.toText_ofString text)]
  exact String.toList_ofList.symm

namespace Call

/-- The call that asks for the history. -/
def asking (clock : Readings) : Call := ⟨[historySwitch], List.cons_ne_nil _ _, clock⟩

/-- The line that the arguments make up. -/
def expression (c : Call) : String := expressionOf c.args

/-- What a call writes in a process of its own, and the files behind it. -/
def perform (settings : Settings) (thresholds : Thresholds) (files : FileTree) (c : Call) :
    Except Fault CommandOutput × FileTree :=
  let (result, d) := act settings c.clock c.args (.ofFiles settings thresholds files)
  (result, d.files)

/-- **A call that is recorded:** its line is evaluated with success. -/
def Records (settings : Settings) (c : Call) : Prop :=
  c.args ≠ [historySwitch] ∧ Succeeds settings c.expression

instance (c : Call) : Decidable (c.Records settings) :=
  inferInstanceAs (Decidable (c.args ≠ [historySwitch] ∧ Succeeds settings c.expression))

/-- The entry of a call: its line and the text that it prints for it. -/
def entry (settings : Settings) (c : Call) : Entry :=
  .ofTexts c.clock.recorded c.expression (answer settings c.expression)

/-- A call as a line of a list. -/
def line (settings : Settings) (c : Call) : String :=
  "[" ++ String.ofList c.clock.recorded.lineText ++ "] " ++ c.expression ++ " = " ++
    answer settings c.expression

theorem line_reread_entry (c : Call) : (c.entry settings).reread.line = c.line settings := by
  rw [← String.toList_inj]
  simp only [Entry.line, Entry.reread, entry, Entry.ofTexts, Json.wording_ofString, line,
    String.toList_append, String.toList_ofList]
  rfl

end Call

/-- The files behind calls, of which the latest is given first. -/
def filesAfter (settings : Settings) (thresholds : Thresholds) (start : FileTree) :
    List Call → FileTree
  | [] => start
  | c :: earlier => (c.perform settings thresholds (filesAfter settings thresholds start earlier)).2

/-- The calls that are recorded. -/
def recordedCalls (settings : Settings) (calls : List Call) : List Call :=
  calls.filter fun c => decide (c.Records settings)

theorem recordedCalls_cons (c : Call) (calls : List Call) :
    recordedCalls settings (c :: calls) =
      if c.Records settings then c :: recordedCalls settings calls
      else recordedCalls settings calls := by
  simp only [recordedCalls, List.filter_cons, decide_eq_true_eq]

/-- **The lines of a history of calls,** of which the latest is given first: one for each call that
is recorded, as many as there is room for. -/
def historyLines (settings : Settings) (calls : List Call) : List String :=
  let kept := (recordedCalls settings calls).take settings.historyLimit.toNat
  if kept.isEmpty then [History.emptyMessage] else kept.map (Call.line settings)

/-- What a file holds of calls: their entries as they are read, as many as there is room for. -/
def entriesOnFile (settings : Settings) (calls : List Call) : List Entry :=
  ((recordedCalls settings calls).take settings.historyLimit.toNat).map fun c =>
    (c.entry settings).reread

theorem map_reread_insert {c : Call} (hrec : c.Records settings) (calls : List Call) :
    ((openedHistory settings (.entries (entriesOnFile settings calls))).insert
      (c.entry settings)).entries.map Entry.reread = entriesOnFile settings (c :: calls) := by
  have hreread : (entriesOnFile settings calls).map Entry.reread =
      entriesOnFile settings calls := by
    rw [entriesOnFile, List.map_map]
    exact List.map_congr_left fun c _ => (c.entry settings).reread_reread
  rw [History.entries_insert, openedHistory, History.Contents.list, take_cons_take, List.map_take,
    List.map_cons, hreread]
  simp only [entriesOnFile, recordedCalls_cons, if_pos hrec]
  rw [← List.map_cons (f := fun c : Call => (c.entry settings).reread), ← List.map_take,
    take_cons_take]

theorem lines_openedHistory (calls : List Call) :
    (openedHistory settings (.entries (entriesOnFile settings calls))).lines =
      historyLines settings calls := by
  simp only [History.lines, openedHistory, History.Contents.list, entriesOnFile, historyLines,
    ← List.map_take, List.take_take, Nat.min_self, List.isEmpty_map, List.map_map,
    Function.comp_def, Call.line_reread_entry]

/-! ### One call -/

section Step
variable {thresholds : Thresholds} {files : FileTree} {found : Contents}
  (hlimit : 1 ≤ settings.historyLimit)
  (hfound : History.ofFile files settings.historyFile = .ok found)
include hlimit hfound

omit hlimit in
theorem fits_openedHistory : (openedHistory settings found).Fits := fun e he =>
  History.fits_of_ofFile hfound e (List.mem_of_mem_take he)

namespace Call

theorem perform_asking (clock : Readings) : (asking clock).perform settings thresholds files =
    (.ok ⟨linesText (openedHistory settings found).lines, none⟩, files) := by
  obtain ⟨d', hact, hfiles⟩ := CommandLine.act_historySwitch
    (d := .ofFiles settings thresholds files) hlimit hfound clock
  simp only [perform, asking, hact, hfiles]
  rfl

/-- **The step of a call:** it prints the answer to its line, and it adds its entry to those in the
file if it is recorded. -/
theorem exists_perform (hp : 0 ≤ settings.displayDecimals) {c : Call}
    (hswitch : c.args ≠ [historySwitch])
    (hsave : c.Records settings → files.CanWrite settings.historyFile) :
    ∃ trace files', c.perform settings thresholds files =
        (.ok ⟨linesText (outputLines c.args trace (answer settings c.expression)), none⟩,
          files') ∧
      (¬ c.Records settings → files' = files) ∧
      (c.Records settings → files'.CanWrite settings.historyFile ∧
        History.ofFile files' settings.historyFile = .ok (.entries
          (((openedHistory settings found).insert (c.entry settings)).entries.map
            Entry.reread))) := by
  obtain ⟨course, htakes⟩ := exists_takes hp c.expression
  have hrecords : c.Records settings ↔ ∃ v, course = .calculated v :=
    (and_iff_right hswitch).trans htakes.succeeds_iff
  obtain ⟨d', hact, hkept, hrecorded⟩ := CommandLine.act_takes
    (d := .ofFiles settings thresholds files) hlimit hfound c.clock c.args_ne_nil hswitch
    (fun v hv => hsave (hrecords.mpr ⟨v, hv⟩)) htakes
  have hshown : course.shown settings (expressionOf c.args) = answer settings c.expression :=
    htakes.answer_eq.symm
  rw [hshown] at hact
  refine ⟨d'.trace, d'.files, ?_, fun hnot => ?_, fun hrec => ?_⟩
  · simp only [perform, hact]
  · exact hkept fun v hv => hnot (hrecords.mpr ⟨v, hv⟩)
  · obtain ⟨v, hv⟩ := hrecords.mp hrec
    have hsaved := hrecorded v hv
    rw [show v.shown = answer settings c.expression by rw [← hshown, hv]; rfl] at hsaved
    have hfits := History.fits_changed (fits_openedHistory hfound)
      (.add c.clock.recorded c.expression (answer settings c.expression))
    exact ⟨FileTree.canWrite_of_write hsaved, History.ofFile_of_save rfl hfits hsaved⟩

theorem perform_unrecorded (hp : 0 ≤ settings.displayDecimals) {c : Call}
    (h : ¬ c.Records settings) : (c.perform settings thresholds files).2 = files := by
  by_cases hswitch : c.args = [historySwitch]
  · have hasking : c = asking c.clock := by
      cases c
      cases hswitch
      rfl
    rw [hasking, perform_asking hlimit hfound]
  · obtain ⟨trace, files', hperform, hkept, -⟩ :=
      exists_perform hlimit hfound hp hswitch fun hrec => absurd hrec h
    rw [hperform]
    exact hkept h

end Call

end Step

/-! ### Call after call -/

section Run
variable (thresholds : Thresholds) {start : FileTree} (hp : 0 ≤ settings.displayDecimals)
  (hlimit : 1 ≤ settings.historyLimit) (hstart : start.read? settings.historyFile = .ok none)
include hp hlimit hstart

/-- **The run of calls:** the file holds the newest of those that are recorded. -/
theorem ofFile_filesAfter {calls : List Call}
    (hsave : (∃ c ∈ calls, c.Records settings) → start.CanWrite settings.historyFile) :
    History.ofFile (filesAfter settings thresholds start calls) settings.historyFile =
        .ok (.entries (entriesOnFile settings calls)) ∧
      (start.CanWrite settings.historyFile →
        (filesAfter settings thresholds start calls).CanWrite settings.historyFile) := by
  induction calls with
  | nil =>
    refine ⟨?_, id⟩
    rw [entriesOnFile, recordedCalls, List.filter_nil, List.take_nil, List.map_nil, filesAfter]
    simp only [History.ofFile, hstart]
  | cons c earlier ih =>
    obtain ⟨hfile, hwrite⟩ := ih fun hearlier =>
      hsave (hearlier.imp fun _ h => h.imp_left (List.mem_cons_of_mem c))
    by_cases hrec : c.Records settings
    · have hcan := hsave ⟨c, List.mem_cons_self, hrec⟩
      obtain ⟨trace, files', hperform, -, hadded⟩ :=
        Call.exists_perform hlimit hfile hp hrec.1 fun _ => hwrite hcan
      obtain ⟨hcan', hfile'⟩ := hadded hrec
      rw [map_reread_insert hrec] at hfile'
      rw [filesAfter, hperform]
      exact ⟨hfile', fun _ => hcan'⟩
    · have hsame : entriesOnFile settings (c :: earlier) = entriesOnFile settings earlier := by
        rw [entriesOnFile, recordedCalls_cons, if_neg hrec]
        rfl
      rw [filesAfter, Call.perform_unrecorded hlimit hfile hp hrec, hsame]
      exact ⟨hfile, hwrite⟩

end Run

/-- **The history of calls:** from no file on, whatever is called, a call that asks for the history
lists the last calls that were recorded, each with its line and the text that it printed, as many as
there is room for. A call that is not recorded leaves the files as they are. -/
theorem history_of_calls (thresholds : Thresholds) (hp : 0 ≤ settings.displayDecimals)
    (hlimit : 1 ≤ settings.historyLimit) {start : FileTree}
    (hstart : start.read? settings.historyFile = .ok none) (calls : List Call)
    (hsave : (∃ c ∈ calls, c.Records settings) → start.CanWrite settings.historyFile) :
    (∀ clock, (Call.asking clock).perform settings thresholds
        (filesAfter settings thresholds start calls) =
      (.ok ⟨linesText (historyLines settings calls), none⟩,
        filesAfter settings thresholds start calls)) ∧
      ∀ c earlier, (c :: earlier) <:+ calls →
        (c.args ≠ [historySwitch] → ∃ trace,
          (c.perform settings thresholds (filesAfter settings thresholds start earlier)).1 =
            .ok ⟨linesText (outputLines c.args trace (answer settings c.expression)), none⟩) ∧
          (¬ c.Records settings → filesAfter settings thresholds start (c :: earlier) =
            filesAfter settings thresholds start earlier) := by
  refine ⟨fun clock => ?_, fun c earlier hsuffix => ?_⟩
  · obtain ⟨hfile, -⟩ := ofFile_filesAfter thresholds hp hlimit hstart hsave
    rw [Call.perform_asking hlimit hfile, lines_openedHistory]
  · obtain ⟨hfile, hwrite⟩ := ofFile_filesAfter thresholds hp hlimit hstart
      fun hearlier => hsave (hearlier.imp fun _ h =>
        h.imp_left fun hmem => hsuffix.subset (List.mem_cons_of_mem c hmem))
    refine ⟨fun hswitch => ?_, Call.perform_unrecorded hlimit hfile hp⟩
    obtain ⟨trace, files', hperform, -⟩ := Call.exists_perform hlimit hfile hp hswitch fun hrec =>
      hwrite (hsave ⟨c, hsuffix.subset List.mem_cons_self, hrec⟩)
    exact ⟨trace, by rw [hperform]⟩

/-! ### Calls beyond the room for them -/

namespace Calls

/-- The standard settings with room for two entries. -/
def narrow : Settings := { Settings.standard with historyLimit := 2 }

/-- A call at midnight. -/
def call (arg : String) (args : List String) : Call :=
  ⟨arg :: args, List.cons_ne_nil arg args, .midnight⟩

/-- Six calls, the latest first: three are recorded. -/
def six : List Call :=
  [call "7-9" [], call "--history" [], call "1/0" [], call "2" ["--trace", "*", "3", "--trace"],
    call "--trace" [], call "1+1" []]

theorem historyLines_six : historyLines narrow six =
    ["[2025-03-04 00:00] 7-9 = -2", "[2025-03-04 00:00] 2 * 3 = 6"] := by decide +kernel

end Calls

open Calls in
theorem history_of_calls_six :
    0 ≤ narrow.displayDecimals ∧ 1 ≤ narrow.historyLimit ∧
      FileTree.empty.read? narrow.historyFile = .ok none ∧
      FileTree.empty.CanWrite narrow.historyFile ∧
      ((Call.asking .midnight).perform narrow .initial
        (filesAfter narrow .initial .empty six)).1 =
          .ok ⟨"[2025-03-04 00:00] 7-9 = -2\n[2025-03-04 00:00] 2 * 3 = 6\n", none⟩ := by
  have hp : 0 ≤ narrow.displayDecimals := by decide
  have hlimit : 1 ≤ narrow.historyLimit := by decide
  have hstart : FileTree.empty.read? narrow.historyFile = .ok none := rfl
  obtain ⟨hprints, -⟩ := history_of_calls .initial hp hlimit hstart six
    fun _ => FileTree.canWrite_empty
  refine ⟨hp, hlimit, hstart, FileTree.canWrite_empty, ?_⟩
  rw [hprints, historyLines_six]
  rfl

end PocketCalculator
