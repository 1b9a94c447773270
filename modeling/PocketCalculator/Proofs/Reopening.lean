import PocketCalculator.Proofs.Changes
import PocketCalculator.Proofs.ReadEntries
import PocketCalculator.Proofs.ReadValues
import PocketCalculator.Proofs.WrittenMoments
import PocketCalculator.Proofs.WrittenValues

/-! # A history is found again in its file

The file of a history is one value: an array with an object for each entry. It keeps to the limits
of the reader as long as the entries do (`Entry.Fits`), and the entries that are added or read do.
So the entries come back as far as their objects tell of them (`ofContents_contents`). After any
changes of which the last one could be written, a history that is opened from the file has the same
entries up to its own capacity, and shows them the same (`reopened`); only an offset of less than a
second is lost. -/

namespace PocketCalculator

/-! ### Entries within limits -/

namespace Json.Fits

variable {n : Nat}

theorem of_mem_array {items : List Json} (h : Fits n (.array items)) :
    ∀ item ∈ items, Fits (n - 1) item := by
  cases h with
  | array h => exact h

theorem of_mem_object {fields : List (Units × Json)} (h : Fits n (.object fields)) :
    ∀ field ∈ fields, Fits (n - 1) field.2 := by
  cases h with
  | object _ h => exact h

end Json.Fits

namespace Entry

/-- **An entry within limits:** an array and an object are still to be opened around its values. -/
structure Fits (e : Entry) : Prop where
  expression : Json.Fits (Json.depthLimit - 1 - 1) e.expression
  result : Json.Fits (Json.depthLimit - 1 - 1) e.result

theorem fits_ofTexts (timestamp : Timestamp) (expression result : String) :
    (ofTexts timestamp expression result).Fits := ⟨.string _, .string _⟩

theorem fits_of_field? {n : Nat} {fields : List (Units × Json)} {name : String} {value : Json}
    (hfields : ∀ field ∈ fields, Json.Fits n field.2) (h : Json.field? fields name = some value) :
    Json.Fits n value := by
  obtain ⟨before, after, rfl, -⟩ := List.lookup_eq_some_iff.mp h
  exact hfields _ (List.mem_append_right before List.mem_cons_self)

theorem fits_of_tellsOf {value : Json} {e : Entry}
    (hvalue : Json.Fits (Json.depthLimit - 1) value) (h : value.TellsOf e) : e.Fits := by
  cases h with
  | object _ _ hexpression hresult =>
    have hfields := hvalue.of_mem_object
    exact ⟨fits_of_field? hfields hexpression, fits_of_field? hfields hresult⟩

theorem fits_of_forall₂ {items : List Json} {list : List Entry}
    (hitems : ∀ item ∈ items, Json.Fits (Json.depthLimit - 1) item)
    (h : List.Forall₂ Json.TellsOf items list) : ∀ e ∈ list, e.Fits := by
  induction h with
  | nil => simp
  | cons hfirst _ ih =>
    rw [List.forall_mem_cons] at hitems ⊢
    exact ⟨fits_of_tellsOf hitems.1 hfirst, ih hitems.2⟩

theorem fits_of_listOfJson {value : Json} {list : List Entry}
    (hvalue : Json.Fits Json.depthLimit value) (h : listOfJson value = .ok list) :
    ∀ e ∈ list, e.Fits := by
  by_cases harray : ∃ items, value = .array items
  · obtain ⟨items, rfl⟩ := harray
    exact fits_of_forall₂ hvalue.of_mem_array (listOfJson_array_iff.mp h)
  · rw [eq_nil_of_listOfJson h (not_exists.mp harray)]
    simp

end Entry

namespace History

theorem ofContents_eq_entries_iff {text : String} {es : List Entry} :
    ofContents text = .ok (.entries es) ↔
      ∃ value, Json.read text.toList = .ok value ∧ Entry.listOfJson value = .ok es := by
  unfold ofContents
  constructor
  · intro h
    split at h
    · cases h
    · cases h
    · cases h
    · next value hread =>
      split at h
      · next list hlist =>
        cases h
        exact ⟨value, hread, hlist⟩
      · cases h
  · rintro ⟨value, hread, hlist⟩
    simp only [hread, hlist]

/-- **What is read from a file is within limits.** -/
theorem fits_of_ofFile {files : FileTree} {path : Path} {found : Contents}
    (h : ofFile files path = .ok found) : ∀ e ∈ Contents.list found, e.Fits := by
  cases found with
  | malformed => exact fun e he => nomatch he
  | unexpected cause => exact fun e he => nomatch he
  | entries es =>
    unfold ofFile at h
    split at h
    · cases h
    · cases h
      exact fun e he => nomatch he
    · split at h
      · cases h
      · obtain ⟨value, hread, hlist⟩ := ofContents_eq_entries_iff.mp h
        exact Entry.fits_of_listOfJson (Json.fits_of_read hread) hlist

/-- All entries of a history are within limits. -/
def Fits (h : History) : Prop := ∀ e ∈ h.entries, e.Fits

theorem fits_changed {h : History} (hfits : h.Fits) (c : Change) : (h.changed c).Fits := by
  intro e he
  cases c with
  | add timestamp expression result =>
    rcases List.mem_cons.mp (List.mem_of_mem_take he) with rfl | he
    · exact Entry.fits_ofTexts timestamp expression result
    · exact hfits e he
  | clear => cases he

end History

/-! ### Entries in a file -/

/-- An entry as it is read again from its object. -/
def Entry.reread (e : Entry) : Entry := { e with timestamp := e.timestamp.reread }

theorem Offset.reread_reread (o : Offset) : o.reread.reread = o.reread := by
  unfold reread
  by_cases hsmall : o.microseconds.natAbs < 1000000
  · rw [if_pos hsmall]
    rfl
  · rw [if_neg hsmall, if_neg hsmall]

/-- What was read once is read the same again. -/
theorem Entry.reread_reread (e : Entry) : e.reread.reread = e.reread := by
  have hoffset : e.timestamp.reread.offset.map Offset.reread = e.timestamp.reread.offset := by
    unfold Timestamp.reread
    rw [Option.map_map]
    exact Option.map_congr fun o _ => o.reread_reread
  unfold reread
  rw [Timestamp.reread, hoffset]
  rfl

theorem map_reread_reread (es : List Entry) :
    (es.map Entry.reread).map Entry.reread = es.map Entry.reread := by
  rw [List.map_map]
  exact List.map_congr_left fun e _ => e.reread_reread

theorem Entry.field_of_three (a b c : Json) :
    let fields := [(Units.ofString "timestamp", a), (Units.ofString "expression", b),
      (Units.ofString "result", c)]
    field fields "timestamp" = .ok a ∧ field fields "expression" = .ok b ∧
      field fields "result" = .ok c := ⟨rfl, rfl, rfl⟩

theorem Entry.ofJson_toJson (e : Entry) : ofJson e.toJson = .ok e.reread := by
  have htimestamp : timestampOf (.string (Units.ofChars e.timestamp.secondsText)) =
      .ok e.timestamp.reread := by
    simp only [timestampOf, Units.points_ofChars, ofPoints_secondsText]
  obtain ⟨hstamp, hexpression, hresult⟩ :=
    field_of_three (.string (Units.ofChars e.timestamp.secondsText)) e.expression e.result
  simp only [ofJson, toJson, hstamp, hexpression, hresult, bind, Except.bind, htimestamp]
  rfl

theorem Entry.fits_toJson {e : Entry} (h : e.Fits) : Json.Fits (Json.depthLimit - 1) e.toJson := by
  have hnames : [Units.ofString "timestamp", Units.ofString "expression",
      Units.ofString "result"].Nodup := by decide
  refine .object hnames fun field hfield => ?_
  simp only [List.mem_cons, List.not_mem_nil, or_false] at hfield
  rcases hfield with rfl | rfl | rfl
  · exact .string _
  · exact h.expression
  · exact h.result

theorem Entry.mapM_ofJson (es : List Entry) :
    (es.map toJson).mapM ofJson = .ok (es.map reread) := by
  induction es with
  | nil => rfl
  | cons e es ih =>
    rw [List.map_cons, List.mapM_cons, ofJson_toJson, ih]
    rfl

namespace History

/-- **The text of a file gives its entries back,** as far as it tells of them. -/
theorem ofContents_contents {es : List Entry} (h : ∀ e ∈ es, e.Fits) :
    ofContents (contents es) = .ok (.entries (es.map Entry.reread)) := by
  have hfits : Json.Fits Json.depthLimit (.array (es.map Entry.toJson)) := by
    refine .array fun item hitem => ?_
    obtain ⟨e, he, rfl⟩ := List.mem_map.mp hitem
    exact Entry.fits_toJson (h e he)
  unfold ofContents contents Json.text
  rw [String.toList_ofList, Json.read_printed hfits]
  simp only [Entry.listOfJson, Entry.mapM_ofJson]

theorem fromUTF8?_toUTF8 (text : String) : String.fromUTF8? text.toUTF8 = some text :=
  dif_pos text.isValidUTF8

variable {files files' : FileTree} {path : Path}

/-- **A history that was written is found in its file.** -/
theorem ofFile_of_save {h : History} (hpath : h.path = some path) (hfits : h.Fits)
    (hsave : h.save files = (files', .ok ())) :
    ofFile files' path = .ok (.entries (h.entries.map Entry.reread)) := by
  rw [save, hpath] at hsave
  have hread := FileTree.read?_of_write hsave
  simp only [ofFile, hread, fromUTF8?_toUTF8, ofContents_contents hfits]

theorem load_of_ofFile {c : Int} (hc : 1 ≤ c) {found : Contents}
    (h : ofFile files path = .ok found) :
    load files (some path) c = .ok (⟨some path, c.toNat, (Contents.list found).take c.toNat⟩,
      Contents.notes path found) := by
  have hpos : ¬ c < 1 := by omega
  simp only [load, if_neg hpos, h]
  rfl

end History

/-! ### Opened, changed and opened again -/

namespace Desk

/-- A history of a path, with entries within limits. -/
def Holds (d : Desk) (path : Path) : Prop := d.history.path = some path ∧ d.history.Fits

theorem openHistory_of_ofFile {d : Desk} {path : Path} {c : Int} (hc : 1 ≤ c)
    {found : Contents} (h : History.ofFile d.files path = .ok found) :
    d.openHistory (some path) c = (.ok (), ({ d with history := ⟨some path, c.toNat,
      (History.Contents.list found).take c.toNat⟩ } : Desk).note
        (History.Contents.notes path found)) := by
  unfold openHistory
  rw [History.load_of_ofFile hc h]

/-- What is found in the file is laid out on the desk, up to the capacity. -/
theorem exists_of_openHistory {start opened : Desk} {path : Path} {capacity : Int}
    (h : start.openHistory (some path) capacity = (.ok (), opened)) :
    ∃ found, History.ofFile start.files path = .ok found ∧ opened.files = start.files ∧
      opened.history = ⟨some path, capacity.toNat,
        (History.Contents.list found).take capacity.toNat⟩ := by
  unfold openHistory History.load at h
  split at h
  · next opening notes hload =>
    split at hload
    · cases hload
    · simp only [bind, Except.bind] at hload
      split at hload
      · cases hload
      · next found hfound =>
        cases hload
        cases h
        exact ⟨found, hfound, rfl, rfl⟩
  · cases h

theorem holds_of_openHistory {start opened : Desk} {path : Path} {capacity : Int}
    (h : start.openHistory (some path) capacity = (.ok (), opened)) : opened.Holds path := by
  obtain ⟨found, hfound, -, hhistory⟩ := exists_of_openHistory h
  unfold Holds
  rw [hhistory]
  exact ⟨rfl, fun e he => History.fits_of_ofFile hfound e (List.mem_of_mem_take he)⟩

theorem Holds.change {d : Desk} {path : Path} (h : d.Holds path) (c : Change) :
    (d.change c).2.Holds path := by
  unfold Holds
  rw [history_change, History.path_changed]
  exact ⟨h.1, History.fits_changed h.2 c⟩

theorem Holds.changeAll {path : Path} : ∀ (changes : List Change) {d : Desk}, d.Holds path →
    (d.changeAll changes).Holds path
  | [], _, h => h
  | c :: changes, _, h => Holds.changeAll changes (h.change c)

theorem ofFile_of_change {d after : Desk} {path : Path} (hd : d.Holds path) {c : Change}
    (h : d.change c = (.ok (), after)) : History.ofFile after.files path =
      .ok (.entries (after.history.entries.map Entry.reread)) := by
  have hafter : after.Holds path := by
    have := hd.change c
    rwa [h] at this
  have hhistory : after.history = d.history.changed c := by rw [← d.history_change c, h]
  obtain ⟨outcome, hsave, hok⟩ := d.save_change c
  rw [h] at hsave hok
  rw [← hhistory] at hsave
  cases outcome with
  | ok => exact History.ofFile_of_save hafter.1 hafter.2 hsave
  | error cause => cases hok

end Desk

/-- An offset that its text tells of to a reader: none, zero, or of a second or more. -/
def Timestamp.KeepsOffset (t : Timestamp) : Prop :=
  ∀ o ∈ t.offset, o.microseconds = 0 ∨ 1000000 ≤ o.microseconds.natAbs

/-- The same clock and calendar at universal time. -/
def Timestamp.atUniversalTime (t : Timestamp) : Timestamp :=
  { t with offset := some .universal }

/-- **An entry is shown as another one:** in the same line and as the same object, in which only an
offset that is not kept gives way to that of universal time. -/
structure Entry.ShownAs (e' e : Entry) : Prop where
  line_eq : e'.line = e.line
  toJson_eq : e.timestamp.KeepsOffset → e'.toJson = e.toJson
  toJson_eq_universal : ¬ e.timestamp.KeepsOffset →
    e'.toJson = Entry.toJson { e with timestamp := e.timestamp.atUniversalTime }

theorem Timestamp.map_reread_of_keeps {t : Timestamp} (h : t.KeepsOffset) :
    t.offset.map Offset.reread = t.offset := by
  have hreread : ∀ o ∈ t.offset, o.reread = o := by
    intro o ho
    unfold Offset.reread
    split
    · next hsmall =>
      obtain ⟨n, hlt, hgt⟩ := o
      obtain rfl : n = 0 := (h _ ho).resolve_right (Nat.not_le.mpr hsmall)
      rfl
    · rfl
  cases hoffset : t.offset with
  | none => rfl
  | some o => rw [Option.map_some, hreread o hoffset]

theorem Timestamp.map_reread_of_not_keeps {t : Timestamp} (h : ¬ t.KeepsOffset) :
    t.offset.map Offset.reread = t.atUniversalTime.offset := by
  cases hoffset : t.offset with
  | none =>
    refine absurd (fun o ho => ?_) h
    rw [hoffset] at ho
    cases ho
  | some o =>
    have hsmall : o.microseconds.natAbs < 1000000 := by
      refine Decidable.byContradiction fun hlarge => h fun o' ho' => ?_
      rw [hoffset] at ho'
      cases ho'
      exact .inr (Nat.not_lt.mp hlarge)
    rw [Option.map_some, Offset.reread, if_pos hsmall]
    rfl

/-- Neither line nor object tell of the microseconds of the time. -/
theorem Entry.toJson_reread (e : Entry) : e.reread.toJson = Entry.toJson { e with
    timestamp := { e.timestamp with offset := e.timestamp.offset.map Offset.reread } } := rfl

theorem Entry.shownAs_reread (e : Entry) : e.reread.ShownAs e where
  line_eq := rfl
  toJson_eq := fun h => by rw [toJson_reread, Timestamp.map_reread_of_keeps h]
  toJson_eq_universal := fun h => by
    rw [toJson_reread, Timestamp.map_reread_of_not_keeps h]
    rfl

/-- **A history is found again:** after any changes of which the last one could be written, a
history that is opened on the same path has the first entries, as many as its capacity allows, in
the same order, and they are shown as they were. -/
theorem reopened {start opened after : Desk} {path : Path} {capacity c : Int}
    (hopen : start.openHistory (some path) capacity = (.ok (), opened)) (changes : List Change)
    {last : Change} (hlast : (opened.changeAll changes).change last = (.ok (), after))
    (hc : 1 ≤ c) :
    History.load after.files (some path) c =
        .ok (⟨some path, c.toNat, (after.history.entries.take c.toNat).map Entry.reread⟩, []) ∧
      ∀ e ∈ after.history.entries, e.reread.ShownAs e := by
  have hholds := Desk.Holds.changeAll changes (Desk.holds_of_openHistory hopen)
  refine ⟨?_, fun e _ => e.shownAs_reread⟩
  rw [History.load_of_ofFile hc (Desk.ofFile_of_change hholds hlast), List.map_take]
  rfl

/-! ### A history in a file, and an offset that is lost -/

namespace Reopening

/-- The path of a file beside the calculator. -/
def path : Path := ⟨"", ["h.json"]⟩

/-- A midnight, at an offset from universal time if it has one. -/
def midnight (offset : Option Offset) : Timestamp :=
  ⟨⟨2025, 1, 1, by decide, by decide, by decide, by decide⟩, .midnight, offset⟩

/-- An entry as only a file has it: its line is an array, its result an object. -/
def nested : Entry :=
  ⟨midnight (some ⟨-12600000000, by decide, by decide⟩), .array [.null, .integer (-7)],
    .object [(Units.ofString "k", .bool true)]⟩

/-- A desk without a history, beside a file with some entries. -/
def desk (entries : List Entry) : Desk :=
  ⟨⟨none, 50, []⟩, FileTree.empty.put path.names (.file (History.contents entries).toUTF8),
    .empty 200, .start .initial⟩

/-- The desk with the history of its file. -/
def opened (entries : List Entry) (capacity : Nat) : Desk :=
  { desk entries with history := ⟨some path, capacity, (entries.map Entry.reread).take capacity⟩ }

theorem ofFile_desk {entries : List Entry} (h : ∀ e ∈ entries, e.Fits) :
    History.ofFile (desk entries).files path = .ok (.entries (entries.map Entry.reread)) := by
  have hread : (desk entries).files.read? path =
      .ok (some (History.contents entries).toUTF8) := rfl
  simp only [History.ofFile, hread, History.fromUTF8?_toUTF8, History.ofContents_contents h]

theorem openHistory_desk {entries : List Entry} (h : ∀ e ∈ entries, e.Fits) {c : Int} (hc : 1 ≤ c) :
    (desk entries).openHistory (some path) c = (.ok (), (opened entries c.toNat).note []) :=
  Desk.openHistory_of_ofFile hc (ofFile_desk h)

theorem fits_nested : nested.Fits := by
  refine ⟨.array ?_, .object (by decide) ?_⟩
  · simp only [List.forall_mem_cons, List.not_mem_nil, false_implies, implies_true, and_true]
    exact ⟨.null, .integer (by decide)⟩
  · simp only [List.forall_mem_cons, List.not_mem_nil, false_implies, implies_true, and_true]
    exact .bool true

/-- A midnight at an offset of half a thousandth of a second. -/
def lost : Timestamp := midnight (some ⟨500, by decide, by decide⟩)

end Reopening

open Reopening in
theorem reopened_nested : ∃ before after,
    (desk [nested]).openHistory (some Reopening.path) 2 = (.ok (), before) ∧
      before.change (.add (midnight none) "1/3\n" "\"𝟙\"") = (.ok (), after) ∧
      History.load after.files (some Reopening.path) 5 =
        .ok (⟨some Reopening.path, 5,
          [.ofTexts (midnight none) "1/3\n" "\"𝟙\"", nested]⟩, []) ∧
      ∀ e ∈ after.history.entries, e.reread.ShownAs e := by
  have hfits : ∀ e ∈ [nested], e.Fits := by
    simp only [List.mem_singleton, forall_eq]
    exact fits_nested
  have hopen := openHistory_desk hfits (c := 2) (by decide)
  have hwrites : ((Desk.note (opened [nested] 2) []).changeAll []).change
      (.add (midnight none) "1/3\n" "\"𝟙\"") = (.ok (), _) := rfl
  obtain ⟨hload, hshown⟩ := reopened (c := 5) hopen [] hwrites (by decide)
  exact ⟨_, _, hopen, rfl, hload, hshown⟩

open Reopening in
/-- An offset of half a thousandth of a second is lost: not every history is found again with the
same objects. -/
theorem not_reopened_same : ¬ ∀ (start opened after : Desk) (path : Path) (capacity c : Int)
    (changes : List Change) (last : Change),
    start.openHistory (some path) capacity = (.ok (), opened) →
      (opened.changeAll changes).change last = (.ok (), after) → 1 ≤ c →
        ∃ again notes, History.load after.files (some path) c = .ok (again, notes) ∧
          again.entries.map Entry.toJson =
            (after.history.entries.take c.toNat).map Entry.toJson ∧
          again.entries.map Entry.line =
            (after.history.entries.take c.toNat).map Entry.line := by
  intro hall
  have hfits : ∀ e ∈ ([] : List Entry), e.Fits := by simp
  have hopen := openHistory_desk hfits (c := 50) (by decide)
  generalize hstart : (Reopening.opened [] _).note [] = d at hopen
  have hwrites : (d.change (.add lost "1+1" "2")).1 = .ok () := by
    rw [← hstart]
    rfl
  have hlast : (d.changeAll []).change (.add lost "1+1" "2") =
      (.ok (), (d.change (.add lost "1+1" "2")).2) := Prod.ext hwrites rfl
  obtain ⟨again, notes, hload, hjson, -⟩ := hall _ _ _ _ _ 1 [] _ hopen hlast (by decide)
  have hfile := Desk.ofFile_of_change (Desk.holds_of_openHistory hopen) hlast
  rw [History.load_of_ofFile (by decide) hfile] at hload
  cases hload
  rw [d.history_change, ← hstart] at hjson
  have hobject : (Entry.ofTexts lost "1+1" "2").reread.toJson =
      (Entry.ofTexts lost "1+1" "2").toJson := Option.some.inj (congrArg List.head? hjson)
  simp only [Entry.toJson, Json.object.injEq, List.cons.injEq, Prod.mk.injEq,
    Json.string.injEq] at hobject
  exact absurd hobject.1.2 (by decide)

end PocketCalculator
