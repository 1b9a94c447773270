import PocketCalculator.Desk
import PocketCalculator.Proofs.WrittenFiles

/-! # Changes of a history and of its file

An entry is added or all entries are dropped. Either way the history in memory is changed first
(`Desk.history_change`), and then its file is written (`Desk.save_change`). So a change whose file
cannot be written stays in memory while the files are as before (`failed_change`); nothing is lost
only where there was nothing to change (`Change.Idle`). -/

namespace PocketCalculator

/-- A change of a history. -/
inductive Change where
  /-- A line and its result are recorded. -/
  | add (timestamp : Timestamp) (expression result : String)
  /-- All entries are dropped. -/
  | clear

/-- A history after a change. -/
def History.changed (h : History) : Change → History
  | .add timestamp expression result => h.insert (.ofTexts timestamp expression result)
  | .clear => h.clear

theorem History.path_changed (h : History) (c : Change) : (h.changed c).path = h.path := by
  cases c <;> rfl

namespace Desk

/-- The history of a desk is changed, and its file is written. -/
def change (d : Desk) : Change → Except Fault Unit × Desk
  | .add timestamp expression result => d.record (.ofTexts timestamp expression result)
  | .clear => d.clearHistory

/-- Changes one after the other, each from where the one before it, failed or not, left the desk. -/
def changeAll (d : Desk) (changes : List Change) : Desk :=
  changes.foldl (fun d c => (d.change c).2) d

theorem history_save (d : Desk) : d.save.2.history = d.history := by
  unfold save
  split <;> rfl

theorem files_save (d : Desk) : ∃ outcome, d.history.save d.files = (d.save.2.files, outcome) ∧
    d.save.1 = outcome.mapError .file := by
  unfold save
  split
  · next files h => exact ⟨.ok (), h, rfl⟩
  · next files cause h => exact ⟨.error cause, h, rfl⟩

section Record
variable (d : Desk) (e : Entry)

theorem history_record : (d.record e).2.history = d.history.insert e := by
  have hsave := history_save (({ d with history := d.history.insert e } : Desk).note
    (evictionNotes d.history))
  unfold record
  dsimp only
  split
  · next saved h =>
    rw [h] at hsave
    exact hsave
  · next saved h =>
    rw [h] at hsave
    exact hsave

theorem save_record : ∃ outcome,
    (d.history.insert e).save d.files = ((d.record e).2.files, outcome) ∧
      (d.record e).1 = outcome.mapError .file := by
  have hsave := files_save (({ d with history := d.history.insert e } : Desk).note
    (evictionNotes d.history))
  unfold record
  dsimp only
  split
  · next saved h =>
    rw [h] at hsave
    exact hsave
  · next saved h =>
    rw [h] at hsave
    exact hsave

end Record

/-- The memory is changed whether the file can be written or not. -/
theorem history_change (d : Desk) (c : Change) : (d.change c).2.history = d.history.changed c := by
  cases c with
  | add timestamp expression result => exact history_record d _
  | clear => exact history_save _

theorem save_change (d : Desk) (c : Change) : ∃ outcome,
    (d.history.changed c).save d.files = ((d.change c).2.files, outcome) ∧
      (d.change c).1 = outcome.mapError .file := by
  cases c with
  | add timestamp expression result => exact save_record d _
  | clear => exact files_save { d with history := d.history.clear }

end Desk

/-! ### Changes that fail -/

/-- **A change that changes nothing:** an entry for a history that is full of the same one, or an
end of all entries where there are none. -/
def Change.Idle (h : History) : Change → Prop
  | .add timestamp expression result =>
    h.entries = List.replicate h.capacity (.ofTexts timestamp expression result)
  | .clear => h.entries = []

/-- A change that leaves the number of entries: a new one in a full history, or an end of all
entries where there are none. -/
def Change.KeepsCount (h : History) : Change → Prop
  | .add _ _ _ => h.entries.length = h.capacity
  | .clear => h.entries = []

theorem take_cons_eq_self_iff {α : Type} {a : α} : ∀ {as : List α} {n : Nat},
    (a :: as).take n = as ↔ as = List.replicate n a
  | as, 0 => by rw [List.take_zero, List.replicate_zero, eq_comm]
  | [], n + 1 => by simp [List.replicate_succ]
  | b :: bs, n + 1 => by
    rw [List.take_succ_cons, List.replicate_succ, List.cons.injEq, List.cons.injEq,
      eq_comm (a := a)]
    constructor
    · rintro ⟨rfl, h⟩
      exact ⟨rfl, take_cons_eq_self_iff.mp h⟩
    · rintro ⟨rfl, h⟩
      exact ⟨rfl, take_cons_eq_self_iff.mpr h⟩

theorem take_cons_take {α : Type} (a : α) (as : List α) (n : Nat) :
    (a :: as.take n).take n = (a :: as).take n := by
  cases n with
  | zero => rfl
  | succ n =>
    rw [List.take_succ_cons, List.take_succ_cons, List.take_take, Nat.min_eq_left n.le_succ]

theorem History.entries_changed_eq_iff (h : History) (c : Change) :
    (h.changed c).entries = h.entries ↔ c.Idle h := by
  cases c with
  | add timestamp expression result => exact take_cons_eq_self_iff
  | clear => exact eq_comm

theorem History.length_changed_eq_iff (h : History) (c : Change) :
    (h.changed c).entries.length = h.entries.length ↔ c.KeepsCount h := by
  cases c with
  | add timestamp expression result =>
    have hlen : (h.changed (.add timestamp expression result)).entries.length =
        min h.capacity (h.entries.length + 1) := by
      rw [changed, entries_insert, List.length_take, List.length_cons]
    rw [hlen, Change.KeepsCount]
    omega
  | clear => exact eq_comm.trans List.length_eq_zero_iff

/-- **A change that fails** because the file cannot be written: the files stay as they are, at most
with new folders around, but the history in memory is the changed one. So the two drift apart unless
there was nothing to change. -/
theorem failed_change {d after : Desk} {c : Change} {fault : Fault}
    (h : d.change c = (.error fault, after)) :
    (∃ cause, fault = .file cause) ∧
      d.files.Grown after.files ∧
      after.history = d.history.changed c ∧
      (after.history.entries = d.history.entries ↔ c.Idle d.history) ∧
      (after.history.entries.length = d.history.entries.length ↔ c.KeepsCount d.history) := by
  have hhistory : after.history = d.history.changed c := by
    rw [← d.history_change c, h]
  obtain ⟨outcome, hsave, hfault⟩ := d.save_change c
  rw [h] at hsave hfault
  obtain ⟨cause, rfl, rfl⟩ : ∃ cause, outcome = .error cause ∧ fault = .file cause := by
    cases outcome with
    | ok => cases hfault
    | error cause =>
      cases hfault
      exact ⟨cause, rfl, rfl⟩
  refine ⟨⟨cause, rfl⟩, ?_, hhistory, ?_, ?_⟩
  · unfold History.save at hsave
    split at hsave
    · injection hsave with _ herror
      cases herror
    · exact FileTree.grown_of_write hsave
  · rw [hhistory]
    exact d.history.entries_changed_eq_iff c
  · rw [hhistory]
    exact d.history.length_changed_eq_iff c

/-- A desk with an empty history, where a folder stands in the place of its file. -/
def Desk.blocked : Desk :=
  ⟨⟨some ⟨"", ["h.json"]⟩, 50, []⟩, ⟨[(["h.json"], .folder)]⟩, .empty 200, .start .initial⟩

theorem isDate_fourthOfMarch : IsDate 2025 3 4 := ⟨by decide, by decide, by decide, by decide⟩

/-- The line `1+1` with its result. -/
def Change.onePlusOne : Change :=
  .add ⟨⟨2025, 3, 4, isDate_fourthOfMarch⟩, .midnight, none⟩ "1+1" "2"

theorem failed_change_blocked : ∃ after,
    Desk.blocked.change .onePlusOne = (.error (.file .isFolder), after) ∧
      after.history = Desk.blocked.history.changed .onePlusOne ∧
      ¬ (after.history.entries = Desk.blocked.history.entries) := by
  have hfails : (Desk.blocked.change .onePlusOne).1 = .error (.file .isFolder) := rfl
  have h : Desk.blocked.change .onePlusOne =
      (.error (.file .isFolder), (Desk.blocked.change .onePlusOne).2) :=
    Prod.ext hfails rfl
  obtain ⟨-, -, hhistory, hentries, -⟩ := failed_change h
  refine ⟨_, h, hhistory, fun heq => ?_⟩
  exact absurd (hentries.mp heq) (List.cons_ne_nil _ _).symm

/-- Not every change that fails leaves the entries and their number as they were. -/
theorem not_atomic_change : ¬ ∀ (d after : Desk) (c : Change) (fault : Fault),
    d.history.path.isSome = true → d.change c = (.error fault, after) →
      after.history.entries = d.history.entries ∧
        after.history.entries.length = d.history.entries.length := by
  intro hall
  obtain ⟨-, hlength⟩ := hall Desk.blocked (Desk.blocked.change .onePlusOne).2 .onePlusOne
    (.file .isFolder) rfl rfl
  exact absurd hlength (by decide)

end PocketCalculator
