import PocketCalculator.Decimal.Basic
import PocketCalculator.Text.Character
import PocketCalculator.Text.Quoted

/-! # Decimal: numbers read from text

A number may stand among blanks, carry a sign, use the decimal digits of any script and have
single underscores between its digits.

* `Decimal.ofParts`: the decimal of digits before and after the point and an exponent.
* `Binary64.ofText?`: the double of a text, by a point, an exponent, or a name of a special value.
* `readInteger`: the whole number of a text, with at most `integerDigitLimit` digits. -/

namespace PocketCalculator

/-- Whether a character may stand before and after a number: blanks, but not the four separators
of the ASCII control characters. -/
def isPadding (c : Char) : Bool := isBlank c && !(0x1c ≤ c.toNat && c.toNat ≤ 0x1f)

/-- A text without what pads it on either side. -/
def trimPadding (cs : List Char) : List Char :=
  ((cs.dropWhile isPadding).reverse.dropWhile isPadding).reverse

/-- A text without its underscores, if each stands between two digits. -/
def joinGroups : List Char → Option (List Char)
  | [] => some []
  | '_' :: _ => none
  | c :: '_' :: d :: rest =>
    if c.isDigit && d.isDigit then (c :: ·) <$> joinGroups (d :: rest) else none
  | c :: rest => (c :: ·) <$> joinGroups rest

/-- A sign at the front, and whether it is a minus. -/
def splitSign : List Char → Bool × List Char
  | '-' :: rest => (true, rest)
  | '+' :: rest => (false, rest)
  | cs => (false, cs)

namespace Decimal

/-- The decimal of digits before the point, digits after it, and an exponent. An exponent that
takes the number beyond any double, or below, is cut where that has happened. -/
def ofParts (negative : Bool) (whole fraction : List Char) (exponent : Int) : Decimal :=
  let digits := whole ++ fraction
  let lowest : Int := -(digits.length + 400 : Nat)
  ⟨negative, Nat.ofDigitChars 10 digits 0, max lowest (min 400 (exponent - fraction.length))⟩

/-- The exponent after the digits: nothing, or a letter `e`, a sign and digits. -/
def readExponent? : List Char → Option Int
  | [] => some 0
  | e :: rest =>
    if e = 'e' ∨ e = 'E' then
      let (negative, digits) := splitSign rest
      if digits ≠ [] ∧ digits.all Char.isDigit then
        let n : Int := Nat.ofDigitChars 10 digits 0
        some (if negative then -n else n)
      else none
    else none

/-- The decimal of an unsigned text of digits, a point and an exponent. -/
def ofUnsigned? (negative : Bool) (cs : List Char) : Option Decimal :=
  let whole := cs.takeWhile Char.isDigit
  let (fraction, rest) := match cs.dropWhile Char.isDigit with
    | '.' :: rest => (rest.takeWhile Char.isDigit, rest.dropWhile Char.isDigit)
    | rest => ([], rest)
  if whole = [] ∧ fraction = [] then none
  else (readExponent? rest).map (ofParts negative whole fraction)

end Decimal

namespace Binary64

/-- The double of a signed text in ASCII digits. -/
def ofPlainText? (cs : List Char) : Option Binary64 :=
  let (negative, unsigned) := splitSign cs
  let name := unsigned.map Char.toLower
  if name = "inf".toList ∨ name = "infinity".toList then some (.infinite negative)
  else if name = "nan".toList then some .nan
  else (Decimal.ofUnsigned? negative unsigned).map Decimal.toBinary64

/-- The double that a text writes. -/
def ofText? (text : String) : Option Binary64 :=
  (joinGroups ((trimPadding text.toList).map asciiDigit)).bind ofPlainText?

end Binary64

/-! ### Whole numbers -/

/-- Why a text is not read as a whole number. -/
inductive IntegerError where
  /-- The text is not digits with an optional sign. -/
  | malformed (text : String)
  /-- The number has more digits than are read. -/
  | tooLong (digits : Nat)
  deriving DecidableEq

/-- Whole numbers of more digits are not read. -/
def integerDigitLimit : Nat := 4300

namespace IntegerError

/-- The wording of an unreadable whole number; a quoted text is cut after 200 characters. -/
def message : IntegerError → String
  | malformed text =>
    "invalid literal for int() with base 10: " ++ String.ofList ((quoted text).toList.take 200)
  | tooLong digits =>
    s!"Exceeds the limit ({integerDigitLimit} digits) for integer string conversion: value has " ++
      s!"{digits} digits; use sys.set_int_max_str_digits() to increase the limit"

end IntegerError

/-- The digits at the front, underscores between two of them left out, and what follows. -/
def digitRun : List Char → List Char × List Char
  | c :: '_' :: d :: rest =>
    if c.isDigit && d.isDigit then
      let (digits, after) := digitRun (d :: rest)
      (c :: digits, after)
    else if c.isDigit then ([c], '_' :: d :: rest) else ([], c :: '_' :: d :: rest)
  | c :: rest =>
    if c.isDigit then
      let (digits, after) := digitRun rest
      (c :: digits, after)
    else ([], c :: rest)
  | [] => ([], [])

/-- The whole number that a text writes. The number of its digits is limited before the text
behind them is looked at, a misplaced underscore apart. -/
def readInteger (text : String) : Except IntegerError Int :=
  let (negative, unsigned) := splitSign ((trimPadding text.toList).map asciiDigit)
  let (digits, after) := digitRun unsigned
  if after.head? = some '_' then .error (.malformed text)
  else if integerDigitLimit < digits.length then .error (.tooLong digits.length)
  else if digits = [] ∨ after ≠ [] then .error (.malformed text)
  else
    let n : Int := Nat.ofDigitChars 10 digits 0
    .ok (if negative then -n else n)

end PocketCalculator
