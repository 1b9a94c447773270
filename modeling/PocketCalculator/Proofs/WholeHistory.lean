import PocketCalculator.Proofs.DamagedFile
import PocketCalculator.Proofs.Rewriting

/-! # A history is read as a whole or not at all

A file is a history if it is an array of which every item tells of an entry, those beyond the
capacity included. Then the first of the entries are opened, in their order; one faulty item, and
likewise any other value or no value at all, opens an empty history (`opened_whole_or_empty`).

* `IsWritten`: the value that the bytes of a file write.
* `isHistory_of_whole`: an array of which every item tells of an entry is a history of all of them.
* `IsHistory.eq_nil`: another history, such as an object without fields, has no entries. -/

namespace PocketCalculator

/-! ### Files -/

/-- **The value of a file:** its bytes are the text of the value. -/
def IsWritten (bytes : ByteArray) (value : Json) : Prop :=
  ∃ text, String.fromUTF8? bytes = some text ∧ Json.read text.toList = .ok value

theorem isHistory_iff {bytes : ByteArray} {es : List Entry} :
    IsHistory bytes es ↔ ∃ value, IsWritten bytes value ∧ Entry.listOfJson value = .ok es := by
  constructor
  · rintro ⟨text, value, htext, hread, hlist⟩
    exact ⟨value, ⟨text, htext, hread⟩, hlist⟩
  · rintro ⟨value, ⟨text, htext, hread⟩, hlist⟩
    exact ⟨text, value, htext, hread, hlist⟩

theorem isHistory_of_whole {bytes : ByteArray} {items : List Json} {es : List Entry}
    (hwritten : IsWritten bytes (.array items)) (htell : List.Forall₂ Json.TellsOf items es) :
    IsHistory bytes es :=
  isHistory_iff.mpr ⟨_, hwritten, Entry.listOfJson_array_iff.mpr htell⟩

/-- A history of anything else has no entries. -/
theorem IsHistory.eq_nil {bytes : ByteArray} {es : List Entry} (h : IsHistory bytes es)
    (hnot : ¬ ∃ items es, IsWritten bytes (.array items) ∧ List.Forall₂ Json.TellsOf items es) :
    es = [] := by
  obtain ⟨value, hwritten, hlist⟩ := isHistory_iff.mp h
  refine Entry.eq_nil_of_listOfJson hlist ?_
  rintro items rfl
  exact hnot ⟨items, es, hwritten, Entry.listOfJson_array_iff.mp hlist⟩

/-- **A history is opened as a whole or as an empty one.** From a regular file of text within the
limits of the reader a history is always opened, and the files stay as they are. If the file is an
array in which every item tells of an entry, the history has the first of these entries, as many as
it has room for, in their order. In every other case it has none. -/
theorem opened_whole_or_empty {d : Desk} {path : Path} {bytes : ByteArray}
    (hfile : d.files.read? path = .ok (some bytes)) (hbytes : bytes.IsValidUTF8)
    (hlimits : ¬ BeyondLimits bytes) {capacity : Int} (hc : 1 ≤ capacity) :
    ∃ opened loaded, d.openHistory (some path) capacity = (.ok (), opened) ∧
      opened.history = ⟨some path, capacity.toNat, loaded⟩ ∧ opened.files = d.files ∧
      (∀ items es, IsWritten bytes (.array items) → List.Forall₂ Json.TellsOf items es →
        loaded = es.take capacity.toNat) ∧
      ((¬ ∃ items es, IsWritten bytes (.array items) ∧ List.Forall₂ Json.TellsOf items es) →
        loaded = []) := by
  obtain ⟨found, hfound, hentries⟩ := History.exists_ofFile hfile hbytes hlimits
  refine ⟨_, _, Desk.openHistory_of_ofFile hc hfound, rfl, rfl, fun items es hwritten htell => ?_,
    fun hnot => ?_⟩
  · rw [(hentries es).mpr (isHistory_of_whole hwritten htell)]
    rfl
  · have hnone : History.Contents.list found = [] := by
      by_cases hlist : ∃ es, found = .entries es
      · obtain ⟨es, rfl⟩ := hlist
        exact ((hentries es).mp rfl).eq_nil hnot
      · exact (@History.notes_of_not_entries path found (not_exists.mp hlist)).1
    rw [hnone, List.take_nil]

/-! ### Two files that differ in their last item -/

theorem IsWritten.eq {bytes : ByteArray} {value value' : Json} (h : IsWritten bytes value)
    (h' : IsWritten bytes value') : value = value' := by
  obtain ⟨text, htext, hread⟩ := h
  obtain ⟨text', htext', hread'⟩ := h'
  rw [htext, Option.some.injEq] at htext'
  rw [← htext', hread] at hread'
  cases hread'
  rfl

theorem IsWritten.not_beyondLimits {bytes : ByteArray} {value : Json} (h : IsWritten bytes value) :
    ¬ BeyondLimits bytes := by
  rintro ⟨text, htext, hlimit⟩
  obtain ⟨text', htext', hread⟩ := h
  rw [htext, Option.some.injEq] at htext'
  rw [← htext'] at hread
  exact Json.not_meetsLimit_of_read hread hlimit

theorem isWritten_text {value : Json} (h : Json.Fits Json.depthLimit value) :
    IsWritten (Json.text value).toUTF8 value := by
  refine ⟨Json.text value, History.fromUTF8?_toUTF8 _, ?_⟩
  rw [Json.text, String.toList_ofList]
  exact Json.read_printed h

/-- A desk without a history, beside a file of a value. -/
def Desk.beside (value : Json) : Desk :=
  ⟨⟨none, 50, []⟩, FileTree.empty.put Reopening.path.names (.file (Json.text value).toUTF8),
    .empty 200, .start .initial⟩

theorem Desk.read?_beside (value : Json) :
    (beside value).files.read? Reopening.path = .ok (some (Json.text value).toUTF8) := rfl

namespace WholeHistory

/-- An object without a result. -/
def lacking : Json :=
  .object [(Units.ofString "timestamp", .ofString "2025-01-01"),
    (Units.ofString "expression", .ofString "1+1")]

/-- An object that tells of an entry, and another item behind it. -/
def followedBy (item : Json) : List Json := [Reopening.nested.toJson, item]

theorem isWritten_followedBy {item : Json} (h : Json.Fits (Json.depthLimit - 1) item) :
    IsWritten (Json.text (.array (followedBy item))).toUTF8 (.array (followedBy item)) := by
  refine isWritten_text (.array ?_)
  simp only [followedBy, List.forall_mem_cons, List.not_mem_nil, false_implies, implies_true,
    and_true]
  exact ⟨Entry.fits_toJson Reopening.fits_nested, h⟩

theorem isWritten_lastWeek :
    IsWritten (Json.text (.array (followedBy lastWeekObject))).toUTF8
      (.array (followedBy lastWeekObject)) := by
  refine isWritten_followedBy (.object (by decide) ?_)
  simp only [List.forall_mem_cons, List.not_mem_nil, false_implies, implies_true, and_true]
  exact ⟨.null, .array (by simp), .string _⟩

theorem isWritten_lacking :
    IsWritten (Json.text (.array (followedBy lacking))).toUTF8 (.array (followedBy lacking)) := by
  refine isWritten_followedBy (.object (by decide) ?_)
  simp only [List.forall_mem_cons, List.not_mem_nil, false_implies, implies_true, and_true]
  exact ⟨.string _, .string _⟩

theorem tellsOf_lastWeek : List.Forall₂ Json.TellsOf (followedBy lastWeekObject)
    [Reopening.nested, ⟨lastWeek, .array [], .null⟩] :=
  .cons (Entry.ofJson_eq_ok_iff.mp Reopening.nested.ofJson_toJson)
    (.cons tellsOf_lastWeekObject .nil)

theorem not_tellsOf_lacking : ¬ ∃ items es,
    IsWritten (Json.text (.array (followedBy lacking))).toUTF8 (.array items) ∧
      List.Forall₂ Json.TellsOf items es := by
  rintro ⟨items, es, hwritten, htell⟩
  cases hwritten.eq isWritten_lacking
  obtain ⟨_, rest, -, hrest, -⟩ := List.forall₂_cons_left_iff.mp htell
  obtain ⟨e, _, ⟨-, -, -, hresult⟩, -⟩ := List.forall₂_cons_left_iff.mp hrest
  cases hresult

end WholeHistory

open WholeHistory in
/-- The history of the first file has its first entry. The second file differs in what lies beyond
the capacity, and its history is empty. -/
theorem opened_whole_or_empty_lacking :
    (∃ opened, (Desk.beside (.array (followedBy lastWeekObject))).openHistory
        (some Reopening.path) 1 = (.ok (), opened) ∧
        opened.history = ⟨some Reopening.path, 1, [Reopening.nested]⟩ ∧
        opened.files = (Desk.beside (.array (followedBy lastWeekObject))).files) ∧
      ∃ opened, (Desk.beside (.array (followedBy lacking))).openHistory
        (some Reopening.path) 1 = (.ok (), opened) ∧
        opened.history = ⟨some Reopening.path, 1, []⟩ ∧
        opened.files = (Desk.beside (.array (followedBy lacking))).files := by
  have hutf8 : ∀ value, (Json.text value).toUTF8.IsValidUTF8 := fun value =>
    (Json.text value).isValidUTF8
  constructor
  · obtain ⟨opened, loaded, hopen, hhistory, hfiles, hwhole, -⟩ :=
      opened_whole_or_empty (Desk.read?_beside (.array (followedBy lastWeekObject))) (hutf8 _)
        isWritten_lastWeek.not_beyondLimits (by decide : (1 : Int) ≤ 1)
    obtain rfl := hwhole _ _ isWritten_lastWeek tellsOf_lastWeek
    exact ⟨opened, hopen, hhistory, hfiles⟩
  · obtain ⟨opened, loaded, hopen, hhistory, hfiles, -, hempty⟩ :=
      opened_whole_or_empty (Desk.read?_beside (.array (followedBy lacking))) (hutf8 _)
        isWritten_lacking.not_beyondLimits (by decide : (1 : Int) ≤ 1)
    obtain rfl := hempty not_tellsOf_lacking
    exact ⟨opened, hopen, hhistory, hfiles⟩

end PocketCalculator
