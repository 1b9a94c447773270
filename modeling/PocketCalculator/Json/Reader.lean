import PocketCalculator.Json.Token

/-! # Json: reading a written value

The reader takes one token after the other and keeps the arrays and objects that are still open on
a stack. `Json.step` is one token; `Json.read` is a whole text, which has to be one value. -/

namespace PocketCalculator

/-- Why a text is not read as a value. -/
inductive JsonError where
  /-- The text is not a written value. -/
  | malformed
  /-- A whole number has more digits than are read. -/
  | tooLong (digits : Nat)
  /-- Arrays and objects are open inside each other beyond the limit. -/
  | tooDeep
  deriving DecidableEq, Repr

namespace Json

/-- Arrays and objects are read up to this depth. The reader works on a stack of a thousand calls,
of which every open array or object takes one, and shares it with those that called it; this is
what callers fifteen deep leave it. No statement here depends on the number. -/
def depthLimit : Nat := 985

/-- An array or an object that is still open. -/
inductive Frame where
  /-- An array with the items so far, the last one first. -/
  | array (before : List Json)
  /-- An object with the fields so far, waiting for the value of a field. -/
  | field (before : List (Units × Json)) (name : Units)

/-- What is expected next, and what is open around it. -/
inductive Expecting where
  /-- A value. -/
  | value (around : List Frame)
  /-- The first item of an array, or its end. -/
  | firstItem (around : List Frame)
  /-- A comma in an array, or its end; the items so far, the last one first. -/
  | nextItem (before : List Json) (around : List Frame)
  /-- The name of the first field of an object, or its end. -/
  | firstField (around : List Frame)
  /-- A comma in an object, or its end. -/
  | nextField (before : List (Units × Json)) (around : List Frame)
  /-- The name of a field. -/
  | name (before : List (Units × Json)) (around : List Frame)
  /-- The colon behind the name of a field. -/
  | colon (before : List (Units × Json)) (name : Units) (around : List Frame)
  /-- Nothing more: the value is complete. -/
  | nothing (value : Json)

/-- A complete value takes its place in what is open around it. -/
def supply (value : Json) : List Frame → Expecting
  | [] => .nothing value
  | .array before :: around => .nextItem (value :: before) around
  | .field before name :: around => .nextField (putField before name value) around

/-- An array or an object is opened, unless too many are open. -/
def enter (around : List Frame) (inside : Expecting) : Except JsonError Expecting :=
  if around.length < depthLimit then .ok inside else .error .tooDeep

/-- A token where a value may stand. -/
def beginValue (around : List Frame) : JsonToken → Except JsonError Expecting
  | .scalar value => .ok (supply value around)
  | .openArray => enter around (.firstItem around)
  | .openObject => enter around (.firstField around)
  | .tooLong digits => .error (.tooLong digits)
  | _ => .error .malformed

/-- A token where the name of a field may stand. -/
def beginField (before : List (Units × Json)) (around : List Frame) :
    JsonToken → Except JsonError Expecting
  | .scalar (.string name) => .ok (.colon before name around)
  | _ => .error .malformed

/-- One token. -/
def step : Expecting → JsonToken → Except JsonError Expecting
  | .value around, token => beginValue around token
  | .firstItem around, .closeArray => .ok (supply (.array []) around)
  | .firstItem around, token => beginValue (.array [] :: around) token
  | .nextItem before around, .closeArray => .ok (supply (.array before.reverse) around)
  | .nextItem before around, .comma => .ok (.value (.array before :: around))
  | .firstField around, .closeObject => .ok (supply (.object []) around)
  | .firstField around, token => beginField [] around token
  | .nextField before around, .closeObject => .ok (supply (.object before) around)
  | .nextField before around, .comma => .ok (.name before around)
  | .name before around, token => beginField before around token
  | .colon before name around, .colon => .ok (.value (.field before name :: around))
  | _, _ => .error .malformed

/-- The value that a text writes. -/
def read (cs : List Char) : Except JsonError Json :=
  match (scan cs).foldlM step (.value []) with
  | .ok (.nothing value) => .ok value
  | .ok _ => .error .malformed
  | .error cause => .error cause

end Json

end PocketCalculator
