import PocketCalculator.Proofs.Reopening
import Mathlib.Tactic.SplitIfs

/-! # Histories that share a file

Several histories are opened on one path, each at some moment, and entries are added to them in any
order. A history reads the file when it is opened and never again, and it writes all of its entries
whenever one is added. So the file holds what the history that was written last has seen
(`onFile`), and that is every entry of all the histories as long as no history is overtaken
(`NoneOvertaken`): nothing is added to it after an entry of another one that it has not read. -/

namespace PocketCalculator

variable {ι : Type}

/-- What is done with one of several histories. -/
inductive Act (ι : Type) where
  /-- The history is opened. -/
  | opens (i : ι)
  /-- An entry is added to it. -/
  | adds (i : ι) (timestamp : Timestamp) (expression result : String)

/-- All entries that were added. Acts are given the latest first, and so are entries. -/
def added : List (Act ι) → List Entry
  | [] => []
  | .opens _ :: acts => added acts
  | .adds _ timestamp expression result :: acts =>
    .ofTexts timestamp expression result :: added acts

section Seen
variable [DecidableEq ι]

mutual

/-- **The entries that a history has seen:** its own and, below those, what was on file when it was
opened. -/
def seenBy (i : ι) : List (Act ι) → List Entry
  | [] => []
  | .opens j :: acts => if j = i then onFile acts else seenBy i acts
  | .adds j timestamp expression result :: acts =>
    if j = i then .ofTexts timestamp expression result :: seenBy i acts else seenBy i acts

/-- **The entries on file:** those that the history has seen to which one was added last. -/
def onFile : List (Act ι) → List Entry
  | [] => []
  | .opens _ :: acts => onFile acts
  | .adds i timestamp expression result :: acts =>
    .ofTexts timestamp expression result :: seenBy i acts

end

/-- A history is up to date: since it was opened or added to, nothing was added to another one. -/
def UpToDate (i : ι) : List (Act ι) → Prop
  | [] => False
  | .opens j :: acts => j = i ∨ UpToDate i acts
  | .adds j _ _ _ :: _ => j = i

/-- **No history is overtaken:** entries are added only to histories that are up to date. -/
def NoneOvertaken : List (Act ι) → Prop
  | [] => True
  | .opens _ :: acts => NoneOvertaken acts
  | .adds i _ _ _ :: acts => UpToDate i acts ∧ NoneOvertaken acts

theorem onFile_eq_added {acts : List (Act ι)} (h : NoneOvertaken acts) :
    onFile acts = added acts ∧ ∀ i, UpToDate i acts → seenBy i acts = added acts := by
  induction acts with
  | nil => exact ⟨rfl, fun i hi => hi.elim⟩
  | cons act acts ih =>
    cases act with
    | opens j =>
      obtain ⟨hfile, hseen⟩ := ih h
      refine ⟨hfile, fun i hi => ?_⟩
      unfold seenBy
      by_cases hj : j = i
      · rw [if_pos hj]
        exact hfile
      · rw [if_neg hj]
        exact hseen i (hi.resolve_left hj)
    | adds j timestamp expression result =>
      obtain ⟨-, hseen⟩ := ih h.2
      have hfile : onFile (.adds j timestamp expression result :: acts) =
          added (.adds j timestamp expression result :: acts) := by
        rw [onFile, added, hseen j h.1]
      refine ⟨hfile, fun i hi => ?_⟩
      obtain rfl : j = i := hi
      rw [seenBy, if_pos rfl]
      exact hfile

/-! ### The runs -/

/-- **A run of acts on one path:** every history is opened and every entry is added with success.
Desk and files are the same for all; each history keeps its entries for itself. -/
inductive Shared (path : Path) (capacity : Int) (start : Desk) :
    List (Act ι) → (ι → Option History) → Desk → Prop where
  | start : Shared path capacity start [] (fun _ => none) start
  | opens {acts : List (Act ι)} {own : ι → Option History} {d d' : Desk}
      (h : Shared path capacity start acts own d) (i : ι)
      (hopen : d.openHistory (some path) capacity = (.ok (), d')) :
      Shared path capacity start (.opens i :: acts)
        (fun j => if i = j then some d'.history else own j) d'
  | adds {acts : List (Act ι)} {own : ι → Option History} {d d' : Desk} {mine : History}
      (h : Shared path capacity start acts own d) {i : ι} (hmine : own i = some mine)
      {timestamp : Timestamp} {expression result : String}
      (hadd : ({ d with history := mine } : Desk).change (.add timestamp expression result) =
        (.ok (), d')) :
      Shared path capacity start (.adds i timestamp expression result :: acts)
        (fun j => if i = j then some d'.history else own j) d'

/-- **A history that has seen entries** holds the newest of them. An entry that was on file is as
it is read. -/
structure History.HasSeen (h : History) (path : Path) (n : Nat) (es : List Entry) : Prop where
  path_eq : h.path = some path
  capacity_eq : h.capacity = n
  fits : h.Fits
  entries_eq : h.entries.map Entry.reread = (es.take n).map Entry.reread

/-- **What the file and the histories hold** after acts. -/
structure Agrees (path : Path) (n : Nat) (acts : List (Act ι)) (own : ι → Option History)
    (d : Desk) : Prop where
  file : History.ofFile d.files path = .ok (.entries (((onFile acts).take n).map Entry.reread))
  seen : ∀ i mine, own i = some mine → mine.HasSeen path n (seenBy i acts)

theorem History.HasSeen.insert {h : History} {path : Path} {n : Nat} {es : List Entry}
    (hseen : h.HasSeen path n es) (timestamp : Timestamp) (expression result : String) :
    (h.changed (.add timestamp expression result)).HasSeen path n
      (.ofTexts timestamp expression result :: es) where
  path_eq := hseen.path_eq
  capacity_eq := hseen.capacity_eq
  fits := fits_changed hseen.fits _
  entries_eq := by
    rw [changed, entries_insert, hseen.capacity_eq, List.map_take, List.map_cons,
      hseen.entries_eq, List.map_take, take_cons_take, List.map_take, List.map_cons]

namespace Agrees

variable {path : Path} {acts : List (Act ι)} {own : ι → Option History} {d d' : Desk}

theorem forall_own {P : ι → History → Prop} {i : ι} {new : History} (hnew : P i new)
    (hold : ∀ j, i ≠ j → ∀ mine, own j = some mine → P j mine) :
    ∀ j mine, (if i = j then some new else own j) = some mine → P j mine := by
  intro j mine hmine
  split_ifs at hmine with hj
  · rw [← hj, ← Option.some.inj hmine]
    exact hnew
  · exact hold j hj mine hmine

theorem opens {capacity : Int} (h : Agrees path capacity.toNat acts own d) (i : ι)
    (hopen : d.openHistory (some path) capacity = (.ok (), d')) :
    Agrees path capacity.toNat (.opens i :: acts)
      (fun j => if i = j then some d'.history else own j) d' := by
  obtain ⟨hpath, hfits⟩ := Desk.holds_of_openHistory hopen
  obtain ⟨found, hfound, hfiles, hhistory⟩ := Desk.exists_of_openHistory hopen
  obtain rfl : found = _ := Except.ok.inj (hfound.symm.trans h.file)
  refine ⟨by rw [hfiles]; exact h.file, forall_own ?_ fun j hj mine hmine => ?_⟩
  · rw [seenBy, if_pos rfl]
    refine ⟨hpath, by rw [hhistory], hfits, ?_⟩
    rw [hhistory, History.Contents.list, ← List.map_take, map_reread_reread, List.take_take,
      Nat.min_self]
  · rw [seenBy, if_neg hj]
    exact h.seen j mine hmine

/-- The step of adding an entry: the file becomes what the history has seen. -/
theorem adds {n : Nat} (h : Agrees path n acts own d) {i : ι} {mine : History}
    (hmine : own i = some mine) {timestamp : Timestamp} {expression result : String}
    (hadd : ({ d with history := mine } : Desk).change (.add timestamp expression result) =
      (.ok (), d')) :
    Agrees path n (.adds i timestamp expression result :: acts)
      (fun j => if i = j then some d'.history else own j) d' := by
  have hseen := (h.seen i mine hmine).insert timestamp expression result
  have hhistory : d'.history = mine.changed (.add timestamp expression result) := by
    rw [← Desk.history_change { d with history := mine }, hadd]
  rw [← hhistory] at hseen
  have hholds : ({ d with history := mine } : Desk).Holds path :=
    ⟨(h.seen i mine hmine).path_eq, (h.seen i mine hmine).fits⟩
  have hfile := Desk.ofFile_of_change hholds hadd
  rw [hseen.entries_eq] at hfile
  refine ⟨hfile, forall_own ?_ fun j hj other hother => ?_⟩
  · rw [seenBy, if_pos rfl]
    exact hseen
  · rw [seenBy, if_neg hj]
    exact h.seen j other hother

/-- **What a run leaves.** -/
theorem of_shared {capacity : Int} {start : Desk} (hstart : start.files.read? path = .ok none)
    (h : Shared path capacity start acts own d) : Agrees path capacity.toNat acts own d := by
  induction h with
  | start =>
    refine ⟨?_, fun i mine hmine => by cases hmine⟩
    rw [onFile, List.take_nil, List.map_nil]
    simp only [History.ofFile, hstart]
  | opens h i hopen ih => exact ih.opens i hopen
  | adds h hmine hadd ih => exact ih.adds hmine hadd

end Agrees

/-- **What a shared file holds:** after any run of histories of one capacity on a path, from no file
on, the file has the newest entries that the history has seen to which one was added last. If none
was overtaken, these are the newest of all. -/
theorem shared_file {path : Path} {capacity : Int} {start d : Desk} {acts : List (Act ι)}
    {own : ι → Option History} (hstart : start.files.read? path = .ok none)
    (h : Shared path capacity start acts own d) :
    History.ofFile d.files path =
        .ok (.entries (((onFile acts).take capacity.toNat).map Entry.reread)) ∧
      (NoneOvertaken acts → History.ofFile d.files path =
        .ok (.entries (((added acts).take capacity.toNat).map Entry.reread))) := by
  have hfile := (Agrees.of_shared hstart h).file
  refine ⟨hfile, fun hnone => ?_⟩
  rw [hfile, (onFile_eq_added hnone).1]

end Seen

/-! ### Two histories on one path -/

namespace Sharing

/-- A desk without a history and without files. -/
def desk : Desk := ⟨⟨none, 50, []⟩, .empty, .empty 200, .start .initial⟩

/-- An entry of a line and its result is added to a history. -/
def add (i : Bool) (expression result : String) : Act Bool :=
  .adds i (Reopening.midnight none) expression result

/-- The second history is opened after an entry was added to the first one. -/
def inTurn : List (Act Bool) :=
  [add true "2+2" "4", .opens true, add false "1+1" "2", .opens false]

/-- Both histories are opened before an entry is added to each. -/
def atOnce : List (Act Bool) :=
  [add true "2+2" "4", add false "1+1" "2", .opens true, .opens false]

theorem exists_atOnce : ∃ own d, Shared Reopening.path 50 desk atOnce own d := by
  have hfirst : Shared Reopening.path 50 desk [.opens false] _ _ := .opens .start false rfl
  have hboth : Shared Reopening.path 50 desk [.opens true, .opens false] _ _ :=
    .opens hfirst true rfl
  have hadded : Shared Reopening.path 50 desk
      [add false "1+1" "2", .opens true, .opens false] _ _ := .adds hboth rfl rfl
  exact ⟨_, _, .adds hadded rfl rfl⟩

theorem exists_inTurn : ∃ own d, Shared Reopening.path 50 desk inTurn own d := by
  have hfirst : Shared Reopening.path 50 desk [.opens false] _ _ := .opens .start false rfl
  have hadded : Shared Reopening.path 50 desk [add false "1+1" "2", .opens false] _ _ :=
    .adds hfirst rfl rfl
  have hfile := (Agrees.of_shared rfl hadded).file
  have hopened : Shared Reopening.path 50 desk
      [.opens true, add false "1+1" "2", .opens false] _ _ :=
    .opens hadded true (Desk.openHistory_of_ofFile (by decide) hfile)
  exact ⟨_, _, .adds hopened rfl rfl⟩

end Sharing

open Sharing in
theorem shared_file_inTurn : Sharing.desk.files.read? Reopening.path = .ok none ∧
    NoneOvertaken inTurn ∧
    ∃ own d, Shared Reopening.path 50 Sharing.desk inTurn own d ∧
      History.ofFile d.files Reopening.path = .ok (.entries
        [.ofTexts (Reopening.midnight none) "2+2" "4",
          .ofTexts (Reopening.midnight none) "1+1" "2"]) := by
  have hnone : NoneOvertaken inTurn := ⟨.inl rfl, .inl rfl, trivial⟩
  obtain ⟨own, d, h⟩ := exists_inTurn
  obtain ⟨-, hall⟩ := shared_file rfl h
  exact ⟨rfl, hnone, own, d, h, hall hnone⟩

open Sharing in
/-- Not every run leaves the newest of all entries in the file: an entry of a history that was
opened at once with another one is lost when an entry is added to the other. -/
theorem not_shared_file_added : ¬ ∀ (path : Path) (capacity : Int) (start d : Desk)
    (acts : List (Act Bool)) (own : Bool → Option History), 1 ≤ capacity →
      start.files.read? path = .ok none → Shared path capacity start acts own d →
        History.ofFile d.files path =
          .ok (.entries (((added acts).take capacity.toNat).map Entry.reread)) := by
  intro hall
  obtain ⟨own, d, h⟩ := exists_atOnce
  have hclaimed := hall _ _ _ _ _ _ (by decide) rfl h
  rw [(Agrees.of_shared rfl h).file] at hclaimed
  injection hclaimed with hcontents
  injection hcontents with hentries
  exact absurd (congrArg List.length hentries) (by decide)

end PocketCalculator
