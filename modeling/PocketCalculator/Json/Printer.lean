import PocketCalculator.Json.Basic

/-! # Json: the written form

A value is written in ASCII, one item or field a line, two spaces further in at each level. A unit
that is not printable ASCII is escaped. -/

namespace PocketCalculator

/-- A unit of a text as it stands between quotes. -/
def escapedUnit (u : UInt16) : List Char :=
  if u = 0x22 then ['\\', '"']
  else if u = 0x5c then ['\\', '\\']
  else if u = 0x0a then ['\\', 'n']
  else if u = 0x0d then ['\\', 'r']
  else if u = 0x09 then ['\\', 't']
  else if u = 0x08 then ['\\', 'b']
  else if u = 0x0c then ['\\', 'f']
  else if 0x20 ≤ u ∧ u < 0x7f then [Char.ofNat u.toNat]
  else '\\' :: 'u' :: hexDigits 4 u.toNat

/-- A text in quotes. -/
def quotedUnits (units : Units) : List Char := '"' :: units.flatMap escapedUnit ++ ['"']

/-- The written form of a double; the special values have names. -/
def numberText : Binary64 → List Char
  | .infinite s => if s then "-Infinity".toList else "Infinity".toList
  | .nan => "NaN".toList
  | x => x.text.toList

/-- A new line and the space in front of it at a level. -/
def indented (level : Nat) : List Char := '\n' :: List.replicate (2 * level) ' '

namespace Json

mutual

/-- The written form of a value at a level. -/
def printed (level : Nat) : Json → List Char
  | null => "null".toList
  | bool b => if b then "true".toList else "false".toList
  | integer n => integerText n
  | number x => numberText x
  | string units => quotedUnits units
  | array [] => ['[', ']']
  | array items => '[' :: printedItems (level + 1) items ++ indented level ++ [']']
  | object [] => ['\x7b', '\x7d']
  | object fields => '\x7b' :: printedFields (level + 1) fields ++ indented level ++ ['\x7d']

/-- The items of an array, each on its line. -/
def printedItems (level : Nat) : List Json → List Char
  | [] => []
  | [item] => indented level ++ printed level item
  | item :: items => indented level ++ printed level item ++ ',' :: printedItems level items

/-- The fields of an object, each on its line. -/
def printedFields (level : Nat) : List (Units × Json) → List Char
  | [] => []
  | [(name, value)] => indented level ++ quotedUnits name ++ ':' :: ' ' :: printed level value
  | (name, value) :: fields =>
    indented level ++ quotedUnits name ++ ':' :: ' ' :: printed level value ++
      ',' :: printedFields level fields

end

/-- The written form of a value. -/
def text (value : Json) : String := String.ofList (printed 0 value)

end Json

end PocketCalculator
