import PocketCalculator.Binary64.Basic

/-! # Decimal: decimal numbers and their positional text

A decimal is `± coefficient * 10 ^ exponent`.

* `Decimal.toBinary64`: the double nearest to a decimal.
* `Decimal.strip`: the same number with no zero at the end of its coefficient.
* `Decimal.plain`: the digits without sign, with a point where the exponent is negative. -/

namespace PocketCalculator

/-- A power of ten. -/
def tenTo (n : Nat) : Nat := Nat.pow 10 n

theorem tenTo_pos (n : Nat) : 0 < tenTo n := Nat.pow_pos (by decide)

theorem tenTo_zero : tenTo 0 = 1 := rfl

theorem tenTo_one : tenTo 1 = 10 := rfl

theorem tenTo_add (m n : Nat) : tenTo (m + n) = tenTo m * tenTo n := Nat.pow_add 10 m n

/-- The decimal number `± coefficient * 10 ^ exponent`. -/
structure Decimal where
  /-- Whether the sign is minus; a zero may carry either sign. -/
  negative : Bool
  /-- The digits, read as one natural number. -/
  coefficient : Nat
  /-- The power of ten of the last digit. -/
  exponent : Int
  deriving DecidableEq

namespace Decimal

/-- The double nearest to a decimal, a tie going to the even significand. -/
def toBinary64 (d : Decimal) : Binary64 :=
  .ofQuotient d.negative (d.coefficient * tenTo d.exponent.toNat * unitsPerOne)
    (tenTo (-d.exponent).toNat)

/-- The number of digits after the point. -/
def places (d : Decimal) : Nat := (-d.exponent).toNat

/-- A coefficient without its zeros at the end, and the power of ten that then ends it. -/
def stripZeros (c : Nat) (k : Int) : Nat × Int :=
  if c = 0 ∨ c % 10 ≠ 0 then (c, k) else stripZeros (c / 10) (k + 1)
termination_by c
decreasing_by omega

/-- The same number with no zero at the end of its coefficient. -/
def strip (d : Decimal) : Decimal :=
  { d with
    coefficient := (stripZeros d.coefficient d.exponent).1
    exponent := (stripZeros d.coefficient d.exponent).2 }

/-- Digits with a point before the last `n` of them, and at least one digit before the point. -/
def pointAt (n : Nat) (digits : List Char) : List Char :=
  let padded := List.replicate (n + 1 - digits.length) '0' ++ digits
  let whole := padded.length - n
  if n = 0 then padded else padded.take whole ++ '.' :: padded.drop whole

/-- The digits of a decimal without its sign, with a point where the exponent is negative. -/
def plain (d : Decimal) : List Char :=
  pointAt d.places (Nat.toDigits 10 (d.coefficient * tenTo d.exponent.toNat))

/-- A text behind a minus sign where one is called for. -/
def signed (negative : Bool) (text : List Char) : List Char :=
  if negative then '-' :: text else text

/-- The position of the point, counted from the first digit: `0.ddd * 10 ^ point`. -/
def point (d : Decimal) : Int := (Nat.toDigits 10 d.coefficient).length + d.exponent

/-- Exponents of one digit are written with two. -/
def exponentDigits (n : Nat) : List Char :=
  if n < 10 then '0' :: Nat.toDigits 10 n else Nat.toDigits 10 n

/-- One digit, the others behind a point, and the power of ten with its sign. -/
def scientific (d : Decimal) : List Char :=
  let e := d.point - 1
  let mantissa := match Nat.toDigits 10 d.coefficient with
    | c :: [] => [c]
    | c :: rest => c :: '.' :: rest
    | [] => []
  mantissa ++ 'e' :: (if e < 0 then '-' else '+') :: exponentDigits e.natAbs

/-- Whether the number is written without an exponent: from `0.0001` to below `10 ^ 16`. -/
def isPlain (d : Decimal) : Bool := decide (-4 < d.point ∧ d.point ≤ 16)

/-- The digits with at least one place, and with an exponent outside the plain range. -/
def general (d : Decimal) : List Char :=
  if d.isPlain then
    if d.places = 0 then d.plain ++ ['.', '0'] else d.plain
  else d.scientific

end Decimal

end PocketCalculator
