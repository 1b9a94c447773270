import PocketCalculator.Text.Printable
import PocketCalculator.Text.Utf16

/-! # Text: quoted texts

A text in quotes shows printable characters as they are and escapes the others: `\n`, `\r`, `\t`,
the backslash, and by number in two, four or eight hexadecimal digits. The quotes are single
unless the text holds a single quote and no double one. -/

namespace PocketCalculator

/-- A number in lower-case hexadecimal digits, padded with zeros to a width. -/
def hexDigits (width n : Nat) : List Char :=
  let digits := Nat.toDigits 16 n
  List.replicate (width - digits.length) '0' ++ digits

/-- A code point as it stands between the given quotes. -/
def quotedPoint (quote : Char) : CodePoint → List Char
  | .lone u => '\\' :: 'u' :: hexDigits 4 u.toNat
  | .char c =>
    if c = quote ∨ c = '\\' then ['\\', c]
    else if c = '\n' then ['\\', 'n']
    else if c = '\r' then ['\\', 'r']
    else if c = '\t' then ['\\', 't']
    else if isPrintable c then [c]
    else if c.toNat < 0x100 then '\\' :: 'x' :: hexDigits 2 c.toNat
    else if c.toNat < 0x10000 then '\\' :: 'u' :: hexDigits 4 c.toNat
    else '\\' :: 'U' :: hexDigits 8 c.toNat

/-- The quotes of a text: double ones only around a single quote without a double one. -/
def quoteOf (points : List CodePoint) : Char :=
  if .char '\'' ∈ points ∧ .char '"' ∉ points then '"' else '\''

/-- A list of code points in quotes. -/
def quotedPoints (points : List CodePoint) : List Char :=
  let quote := quoteOf points
  quote :: points.flatMap (quotedPoint quote) ++ [quote]

/-- A text in quotes. -/
def quoted (text : String) : String :=
  String.ofList (quotedPoints (text.toList.map .char))

end PocketCalculator
