import PocketCalculator.Proofs.Reopening
import Mathlib.Data.List.Induction

/-! # What a history keeps

A history that is opened and then changed gathers entries: those added since it was cleared, the
newest first, and below them those it was opened with, unless it was cleared (`gathered`). It keeps
the first of them, as many as it has room for (`entries_changeAll`). The step is that of one change
(`History.entries_changed`): what falls out at the capacity never comes back, for a new entry only
ever pushes the others further down. -/

namespace PocketCalculator

/-- The entry that a change adds, if it adds one. -/
def Change.added? : Change → Option Entry
  | .add timestamp expression result => some (.ofTexts timestamp expression result)
  | .clear => none

/-- **The entries added since the history was cleared,** the newest first. Changes are given in
their order. -/
def addedSinceClear (changes : List Change) : List Entry :=
  (changes.reverse.takeWhile (·.added?.isSome)).filterMap Change.added?

/-- **All that is gathered:** the added entries and, if the history was never cleared, those it was
opened with. -/
def gathered (loaded : List Entry) (changes : List Change) : List Entry :=
  addedSinceClear changes ++ if changes.all (·.added?.isSome) then loaded else []

theorem gathered_add (loaded : List Entry) (changes : List Change) (timestamp : Timestamp)
    (expression result : String) :
    gathered loaded (changes ++ [.add timestamp expression result]) =
      .ofTexts timestamp expression result :: gathered loaded changes := by
  simp [gathered, addedSinceClear, Change.added?]

theorem gathered_clear (loaded : List Entry) (changes : List Change) :
    gathered loaded (changes ++ [.clear]) = [] := by
  simp [gathered, addedSinceClear, Change.added?]

namespace History

/-- **What stands in the file of a history:** nothing if it has no file, else what is read. -/
inductive Stored (files : FileTree) : Option Path → List Entry → Prop where
  | nowhere : Stored files none []
  | file {path : Path} {found : Contents} (h : ofFile files path = .ok found) :
      Stored files (some path) (Contents.list found)

theorem capacity_changed (h : History) (c : Change) : (h.changed c).capacity = h.capacity := by
  cases c <;> rfl

/-- **The step of a change.** -/
theorem entries_changed {h : History} {loaded : List Entry} {changes : List Change}
    (hentries : h.entries = (gathered loaded changes).take h.capacity) (c : Change) :
    (h.changed c).entries = (gathered loaded (changes ++ [c])).take h.capacity := by
  cases c with
  | add timestamp expression result =>
    rw [gathered_add, changed, entries_insert, hentries, take_cons_take]
  | clear => rw [gathered_clear, changed, entries_clear, List.take_nil]

end History

namespace Desk

theorem exists_stored_of_openHistory {start opened : Desk} {path : Option Path} {capacity : Int}
    (h : start.openHistory path capacity = (.ok (), opened)) :
    1 ≤ capacity ∧ ∃ loaded, History.Stored start.files path loaded ∧
      opened.history = ⟨path, capacity.toNat, loaded.take capacity.toNat⟩ := by
  have hpos : 1 ≤ capacity := by
    refine Int.not_lt.mp fun hlow => ?_
    simp only [openHistory, History.load, if_pos hlow] at h
    cases h
  refine ⟨hpos, ?_⟩
  cases path with
  | none =>
    simp only [openHistory, History.load, if_neg (Int.not_lt.mpr hpos)] at h
    cases h
    exact ⟨[], .nowhere, by rw [List.take_nil]; rfl⟩
  | some path =>
    obtain ⟨found, hfound, -, hhistory⟩ := exists_of_openHistory h
    exact ⟨_, .file hfound, hhistory⟩

/-- **The run of changes.** -/
theorem history_changeAll {d : Desk} {loaded : List Entry}
    (hentries : d.history.entries = loaded.take d.history.capacity) (changes : List Change) :
    (d.changeAll changes).history.capacity = d.history.capacity ∧
      (d.changeAll changes).history.entries =
        (gathered loaded changes).take d.history.capacity := by
  induction changes using List.reverseRecOn with
  | nil => exact ⟨rfl, hentries⟩
  | append_singleton changes c ih =>
    obtain ⟨hcapacity, hkept⟩ := ih
    have hlast : (d.changeAll (changes ++ [c])).history =
        (d.changeAll changes).history.changed c := by
      rw [changeAll, List.foldl_append, ← changeAll]
      exact history_change _ c
    rw [← hcapacity] at hkept ⊢
    rw [hlast]
    exact ⟨History.capacity_changed _ c, History.entries_changed hkept c⟩

end Desk

/-- **What a history keeps:** opened with whatever its file holds, and after any changes, whether
they could be written or not, it has the first of all entries that it has gathered, and never more
of them than its capacity. -/
theorem entries_changeAll {start opened : Desk} {path : Option Path} {capacity : Int}
    (hopen : start.openHistory path capacity = (.ok (), opened)) :
    ∃ loaded, History.Stored start.files path loaded ∧ ∀ changes : List Change,
      (opened.changeAll changes).history.entries =
          (gathered loaded changes).take capacity.toNat ∧
        ((opened.changeAll changes).history.entries.length : Int) ≤ capacity := by
  obtain ⟨hpos, loaded, hstored, hhistory⟩ := Desk.exists_stored_of_openHistory hopen
  have hcapacity : opened.history.capacity = capacity.toNat := by rw [hhistory]
  have hfirst : opened.history.entries = loaded.take opened.history.capacity := by rw [hhistory]
  refine ⟨loaded, hstored, fun changes => ?_⟩
  obtain ⟨-, hkept⟩ := Desk.history_changeAll hfirst changes
  rw [hcapacity] at hkept
  refine ⟨hkept, ?_⟩
  have hlen := List.length_take_le capacity.toNat (gathered loaded changes)
  rw [hkept]
  omega

/-! ### A history opened on a file with too many entries -/

namespace Retention

/-- The entry of a numeral. -/
def entry (text : String) : Entry := .ofTexts (Reopening.midnight none) text text

/-- The entry of a numeral is added. -/
def add (text : String) : Change := .add (Reopening.midnight none) text text

/-- Entries as they stand in the file. -/
def three : List Entry := [entry "3", entry "2", entry "1"]

end Retention

open Retention in
theorem entries_changeAll_oversized : ∃ opened,
    (Reopening.desk three).openHistory (some Reopening.path) 2 = (.ok (), opened) ∧
      opened.history.entries = [entry "3", entry "2"] ∧
      (opened.changeAll [add "4"]).history.entries = [entry "4", entry "3"] ∧
      (opened.changeAll [add "4", .clear, add "5"]).history.entries = [entry "5"] := by
  have hfits : ∀ e ∈ three, e.Fits := by
    simp only [three, List.forall_mem_cons, List.not_mem_nil, false_implies, implies_true, and_true]
    exact ⟨Entry.fits_ofTexts .., Entry.fits_ofTexts .., Entry.fits_ofTexts ..⟩
  have hopen := Reopening.openHistory_desk hfits (c := 2) (by decide)
  obtain ⟨loaded, hstored, hkept⟩ := entries_changeAll hopen
  obtain rfl : loaded = three := by
    cases hstored with
    | file hfound =>
      obtain rfl := Except.ok.inj (hfound.symm.trans (Reopening.ofFile_desk hfits))
      rfl
  exact ⟨_, hopen, (hkept []).1, (hkept [add "4"]).1, (hkept [add "4", .clear, add "5"]).1⟩

end PocketCalculator
