import PocketCalculator.Calendar.Reading
import PocketCalculator.Json.Basic

/-! # History: entries

An entry is a successful calculation: when it was made, the line and the result. Line and result
are JSON values, since a file may hold any; the calculator itself only makes texts.

* `Entry.toJson`, `Entry.ofJson`: an entry as an object, and back.
* `Entry.line`: an entry as a line of a list. -/

namespace PocketCalculator

/-- A calculation that has been recorded. -/
structure Entry where
  timestamp : Timestamp
  expression : Json
  result : Json

/-- Why a value is not an entry, or not a list of entries. -/
inductive EntryError where
  /-- A field of an entry is missing. -/
  | missing (name : String)
  /-- The timestamp is not a text. -/
  | timestampNotText
  /-- The timestamp is a text of no moment. -/
  | timestamp (cause : TimestampError)
  /-- An entry is looked for in a text. -/
  | inText
  /-- An entry is looked for in an array. -/
  | inArray
  /-- An entry is looked for in a value without parts. -/
  | noFields (kind : String)
  /-- A list is looked for in a value without parts. -/
  | noItems (kind : String)
  deriving DecidableEq

/-- The wording of a value that is no entry. -/
def EntryError.message : EntryError → String
  | missing name => quoted name
  | timestampNotText => "fromisoformat: argument must be str"
  | timestamp cause => cause.message
  | inText => "string indices must be integers, not 'str'"
  | inArray => "list indices must be integers or slices, not str"
  | noFields kind => s!"'{kind}' object is not subscriptable"
  | noItems kind => s!"'{kind}' object is not iterable"

namespace Entry

/-- The entry of a text line and its result. -/
def ofTexts (timestamp : Timestamp) (expression result : String) : Entry :=
  ⟨timestamp, .ofString expression, .ofString result⟩

/-- An entry as an object; its timestamp is cut to whole seconds. -/
def toJson (e : Entry) : Json :=
  .object [(Units.ofString "timestamp", .string (Units.ofChars e.timestamp.secondsText)),
    (Units.ofString "expression", e.expression), (Units.ofString "result", e.result)]

/-- A field of an entry. -/
def field (fields : List (Units × Json)) (name : String) : Except EntryError Json :=
  match Json.field? fields name with
  | some value => .ok value
  | none => .error (.missing name)

/-- The timestamp of a value. -/
def timestampOf : Json → Except EntryError Timestamp
  | .string units =>
    match Timestamp.ofPoints units.points with
    | .ok t => .ok t
    | .error cause => .error (.timestamp cause)
  | _ => .error .timestampNotText

/-- The entry of an object. The timestamp is looked at before the other fields. -/
def ofJson : Json → Except EntryError Entry
  | .object fields => do
    let timestamp ← timestampOf (← field fields "timestamp")
    let expression ← field fields "expression"
    let result ← field fields "result"
    return ⟨timestamp, expression, result⟩
  | .string _ => .error .inText
  | .array _ => .error .inArray
  | value => .error (.noFields value.kindName)

/-- The entries of a value: the items of an array. An object without fields and a text without
characters have none; their parts are texts otherwise. -/
def listOfJson : Json → Except EntryError (List Entry)
  | .array items => items.mapM ofJson
  | .object fields => if fields.isEmpty then .ok [] else .error .inText
  | .string units => if units.isEmpty then .ok [] else .error .inText
  | value => .error (.noItems value.kindName)

/-- An entry as a line of a list. -/
def line (e : Entry) : String :=
  String.ofList ('[' :: e.timestamp.lineText ++ "] ".toList ++ e.expression.wording ++
    " = ".toList ++ e.result.wording)

end Entry

end PocketCalculator
