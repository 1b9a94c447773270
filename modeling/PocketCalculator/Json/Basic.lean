import PocketCalculator.Decimal.Shortest
import PocketCalculator.Text.Quoted

/-! # Json: values and their plain wording

A value as it is exchanged in JSON. Texts are sequences of UTF-16 units, since a file may hold a
surrogate without a partner. Fields of an object keep the order in which they first came.

* `Json.putField`: a field joins an object; one of the same name takes its place.
* `Json.wording`: a value as it is shown in a line of text. -/

namespace PocketCalculator

/-- A JSON value. Numbers with a point or an exponent are doubles, the others are whole. -/
inductive Json where
  | null
  | bool (b : Bool)
  | integer (n : Int)
  | number (x : Binary64)
  | string (units : Units)
  | array (items : List Json)
  | object (fields : List (Units × Json))

namespace Json

instance : Inhabited Json := ⟨null⟩

/-- The value of a text of characters. -/
def ofString (text : String) : Json := string (Units.ofString text)

/-- The value of a text that may be missing. -/
def ofText? (text : Option String) : Json :=
  match text with
  | some t => ofString t
  | none => null

/-- The first parts of a value, at most `n` of them: characters of a text or items of an array.
Other values have no parts in order. -/
def leading? (n : Nat) : Json → Option Json
  | string units => some (string ((units.points.take n).flatMap CodePoint.units))
  | array items => some (array (items.take n))
  | _ => none

/-- The text of a whole number. -/
def integerText (n : Int) : List Char :=
  Decimal.signed (decide (n < 0)) (Nat.toDigits 10 n.natAbs)

/-- A field joins an object. It takes the place of a field of the same name, else the last one. -/
def putField (fields : List (Units × Json)) (name : Units) (value : Json) : List (Units × Json) :=
  if fields.any (·.1 == name) then
    fields.map fun field => if field.1 == name then (name, value) else field
  else fields ++ [(name, value)]

/-- The value of a field of an object. -/
def field? (fields : List (Units × Json)) (name : String) : Option Json :=
  fields.lookup (Units.ofString name)

/-- What kind of value it is. -/
def kindName : Json → String
  | null => "NoneType"
  | bool _ => "bool"
  | integer _ => "int"
  | number _ => "float"
  | string _ => "str"
  | array _ => "list"
  | object _ => "dict"

mutual

/-- A value inside another one as it is shown in a line of text: texts are quoted. -/
def innerWording : Json → List Char
  | null => "None".toList
  | bool b => if b then "True".toList else "False".toList
  | integer n => integerText n
  | number x => x.text.toList
  | string units => quotedPoints units.points
  | array items => '[' :: itemsWording items ++ [']']
  | object fields => '\x7b' :: fieldsWording fields ++ ['\x7d']

/-- The items of an array, a comma between them. -/
def itemsWording : List Json → List Char
  | [] => []
  | [item] => innerWording item
  | item :: items => innerWording item ++ ", ".toList ++ itemsWording items

/-- The fields of an object, a comma between them. -/
def fieldsWording : List (Units × Json) → List Char
  | [] => []
  | [(name, value)] => quotedPoints name.points ++ ": ".toList ++ innerWording value
  | (name, value) :: fields =>
    quotedPoints name.points ++ ": ".toList ++ innerWording value ++ ", ".toList ++
      fieldsWording fields

end

/-- A value as it is shown in a line of text: a text as it is, another value in words. -/
def wording : Json → List Char
  | string units => units.toChars
  | value => innerWording value

end Json

end PocketCalculator
