import PocketCalculator.Fault
import PocketCalculator.History.Entry
import PocketCalculator.Json.Printer
import PocketCalculator.Json.Reader

/-! # History: the bounded list of entries and its file

A history keeps its newest entries, the newest first, up to its capacity. With a path it is read
from a file when it is opened and written to it after every change. A file that is not a history
counts as an empty one.

* `History.insert`, `History.clear`: the changes in memory.
* `History.contents`, `History.ofContents`: the text of the file, and the entries in it.
* `History.load`, `History.save`: the file.
* `History.lines`: the entries as lines. -/

namespace PocketCalculator

/-- A bounded list of entries, the newest first, and the file that holds them too, if any. -/
structure History where
  path : Option Path
  capacity : Nat
  entries : List Entry

/-- What is read from the text of a file. -/
inductive Contents where
  | entries (list : List Entry)
  /-- The text is not a written value. -/
  | malformed
  /-- The value is not a list of entries. -/
  | unexpected (cause : EntryError)

namespace History

/-- A new entry comes first; entries beyond the capacity are dropped. -/
def insert (h : History) (e : Entry) : History :=
  { h with entries := (e :: h.entries).take h.capacity }

/-- The number of entries dropped by a new one. -/
def evicted (h : History) : Nat := h.entries.length + 1 - h.capacity

/-- All entries are dropped. -/
def clear (h : History) : History := { h with entries := [] }

/-- The text of the file. -/
def contents (entries : List Entry) : String := Json.text (.array (entries.map Entry.toJson))

/-- What the text of a file holds. -/
def ofContents (text : String) : Except Fault Contents :=
  match Json.read text.toList with
  | .error .malformed => .ok .malformed
  | .error (.tooLong digits) => .error (.integer (.tooLong digits))
  | .error .tooDeep => .error .tooDeep
  | .ok value =>
    match Entry.listOfJson value with
    | .ok list => .ok (.entries list)
    | .error cause => .ok (.unexpected cause)

/-- What the file of a path holds; no file holds no entries. -/
def ofFile (files : FileTree) (path : Path) : Except Fault Contents :=
  match files.read? path with
  | .error cause => .error (.file cause)
  | .ok none => .ok (.entries [])
  | .ok (some bytes) =>
    match String.fromUTF8? bytes with
    | none => .error .notText
    | some text => ofContents text

/-- The entries that are read; what is not a history has none. -/
def Contents.list : Contents → List Entry
  | .entries list => list
  | .malformed | .unexpected _ => []

/-- The note on a file that is not a history. -/
def Contents.notes (path : Path) : Contents → List LogRecord
  | .entries _ => []
  | .malformed =>
    [⟨.warning, .history, s!"History file {path.text} is not valid JSON, starting empty"⟩]
  | .unexpected cause =>
    [⟨.warning, .history,
      s!"History file {path.text} has unexpected entries ({cause.message}), starting empty"⟩]

/-- A history is opened; what its file holds beyond the capacity is left out. -/
def load (files : FileTree) (path : Option Path) (capacity : Int) :
    Except Fault (History × List LogRecord) :=
  if capacity < 1 then .error .noCapacity
  else
    match path with
    | none => .ok (⟨none, capacity.toNat, []⟩, [])
    | some file => do
      let found ← ofFile files file
      return (⟨path, capacity.toNat, (Contents.list found).take capacity.toNat⟩,
        Contents.notes file found)

/-- The entries are written to the file, if there is one. -/
def save (h : History) (files : FileTree) : FileTree × Except FileFault Unit :=
  match h.path with
  | none => (files, .ok ())
  | some path => files.write path (contents h.entries).toUTF8

/-- What stands in place of the lines of an empty history. -/
def emptyMessage : String := "No history saved."

/-- The entries as lines, or the message that there are none. -/
def lines (h : History) : List String :=
  if h.entries.isEmpty then [emptyMessage] else h.entries.map Entry.line

theorem entries_insert (h : History) (e : Entry) :
    (h.insert e).entries = (e :: h.entries).take h.capacity := rfl

@[simp] theorem capacity_insert (h : History) (e : Entry) :
    (h.insert e).capacity = h.capacity := rfl

@[simp] theorem path_insert (h : History) (e : Entry) : (h.insert e).path = h.path := rfl

@[simp] theorem entries_clear (h : History) : h.clear.entries = [] := rfl

end History

end PocketCalculator
