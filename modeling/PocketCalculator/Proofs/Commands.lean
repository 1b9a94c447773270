import PocketCalculator.CommandLine
import PocketCalculator.Proofs.InMemory
import PocketCalculator.Proofs.Reopening

/-! # What a command does with its line

A command opens the history of its file and evaluates the line that its arguments make up. If
something is found in the file, the command goes through: the last line it writes is what the course
of its line shows, and it writes the file only where there is an entry to record (`act_takes`). -/

namespace PocketCalculator

variable {settings : Settings}

theorem Desk.canSave_of_canWrite {d : Desk} {path : Path} (hpath : d.history.path = some path)
    (h : d.files.CanWrite path) : d.CanSave := by
  intro entries
  simp only [History.save, hpath]
  exact h _

theorem FileTree.canWrite_empty : FileTree.empty.CanWrite Settings.standard.historyFile :=
  fun _ => ⟨_, rfl⟩

namespace CommandLine

/-- The history that a command opens on what it finds in the file. -/
def openedHistory (settings : Settings) (found : Contents) : History :=
  ⟨some settings.historyFile, settings.historyLimit.toNat,
    (History.Contents.list found).take settings.historyLimit.toNat⟩

/-- The lines of a command: the summary if it is asked for, and a last line. -/
def outputLines (args : List String) (trace : Trace) (last : String) : List String :=
  (if traceSwitch ∈ args then [trace.summary] else []) ++ [last]

theorem calculateLine_takes (clock : Readings) (args : List String) {d : Desk} {course : Course}
    (hd : ∀ v, course = .calculated v → d.CanSave)
    (h : Takes settings (expressionOf args) course) :
    ∃ d', calculateLine settings clock args d =
        (.ok ⟨linesText (outputLines args d'.trace (course.shown settings (expressionOf args))),
          none⟩, d') ∧
      course.Leaves settings clock (expressionOf args) d.clearTrace d' := by
  have hsave : ∀ v, course = .calculated v → d.clearTrace.CanSave := fun v hv => hd v hv
  obtain ⟨d', heval, hleaves⟩ :=
    (Session.start ⟨expressionOf args⟩).evaluate_takes clock hsave h
  refine ⟨d', ?_, hleaves⟩
  simp only [calculateLine, heval]
  rfl

section Opened
variable {d : Desk} {found : Contents} (hlimit : 1 ≤ settings.historyLimit)
  (hfound : History.ofFile d.files settings.historyFile = .ok found)
include hlimit hfound

theorem exists_opened : ∃ opened,
    d.openHistory (some settings.historyFile) settings.historyLimit = (.ok (), opened) ∧
      opened.history = openedHistory settings found ∧ opened.files = d.files :=
  ⟨_, Desk.openHistory_of_ofFile hlimit hfound, rfl, rfl⟩

/-- **A command follows the course of its line,** whatever is found in the file. -/
theorem act_takes (clock : Readings) {args : List String} (hargs : args ≠ [])
    (hswitch : args ≠ [historySwitch]) {course : Course}
    (hd : ∀ v, course = .calculated v → d.files.CanWrite settings.historyFile)
    (h : Takes settings (expressionOf args) course) :
    ∃ d', act settings clock args d =
        (.ok ⟨linesText (outputLines args d'.trace (course.shown settings (expressionOf args))),
          none⟩, d') ∧
      ((∀ v, course ≠ .calculated v) → d'.files = d.files) ∧
      ∀ v, course = .calculated v →
        ((openedHistory settings found).insert
          (.ofTexts clock.recorded (expressionOf args) v.shown)).save d.files =
            (d'.files, .ok ()) := by
  obtain ⟨opened, hopen, hhistory, hfiles⟩ := exists_opened hlimit hfound
  have hsave : ∀ v, course = .calculated v → opened.CanSave := fun v hv =>
    Desk.canSave_of_canWrite (by rw [hhistory]; rfl) (hfiles ▸ hd v hv)
  obtain ⟨d', hline, hleaves⟩ := calculateLine_takes clock args hsave h
  refine ⟨d', ?_, fun hne => (hleaves.kept hne).2.trans hfiles, fun v hv => ?_⟩
  · simp only [act, if_neg hargs, if_neg hswitch, hopen]
    exact hline
  · obtain ⟨hinsert, hsaved⟩ := hleaves.recorded v hv
    rw [hinsert] at hsaved
    rw [← hhistory, ← hfiles]
    exact hsaved

theorem act_historySwitch (clock : Readings) :
    ∃ d', act settings clock [historySwitch] d =
        (.ok ⟨linesText (openedHistory settings found).lines, none⟩, d') ∧
      d'.files = d.files := by
  obtain ⟨opened, hopen, hhistory, hfiles⟩ := exists_opened hlimit hfound
  refine ⟨opened, ?_, hfiles⟩
  simp only [act, if_neg (List.cons_ne_nil _ _), hopen, if_true, hhistory]

end Opened

end CommandLine

end PocketCalculator
