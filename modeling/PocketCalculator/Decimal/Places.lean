import PocketCalculator.Decimal.Shortest

/-! # Decimal: rounding to a number of places

`toPlaces` rounds the exact value of a double to a multiple of `10 ^ -places`, a tie going to the
even one. `Binary64.roundForDisplay` does so only to a double whose shortest decimal has more
places, and then takes the double nearest to the result; `Binary64.hundredths` writes two places. -/

namespace PocketCalculator

/-- The multiple of `10 ^ -places` nearest to the value of `m` units. A finite value is less than
half of `10 ^ 400`, so that fewer places than `-400` give the same zero. -/
def toPlaces (negative : Bool) (m : Nat) (places : Int) : Decimal :=
  let places := max places (-400)
  let units := unitsPerOne * tenTo (-places).toNat
  ⟨negative, halfEven (m * tenTo places.toNat) units, -places⟩

/-- Why a double cannot be rounded to a number of places. -/
inductive RoundingError where
  /-- An infinity or not a number has no places. -/
  | notFinite
  /-- The rounded value is beyond the largest double. -/
  | tooLarge
  deriving DecidableEq, Repr

namespace RoundingError

/-- The wording of a failed rounding. -/
def message : RoundingError → String
  | notFinite => "an infinity or not a number has no decimal places"
  | tooLarge => "rounded value too large to represent"

end RoundingError

namespace Binary64

/-- A zero loses its sign. -/
def dropZeroSign (x : Binary64) : Binary64 := if x.isZero then zero false else x

/-- A double rounded to a number of places, if its shortest decimal has more of them. -/
def roundForDisplay (places : Int) : Binary64 → Except RoundingError Binary64
  | finite s m h =>
    if places < -(shortestDecimal s m).exponent then
      match (toPlaces s m places).toBinary64 with
      | x@(finite ..) => .ok x.dropZeroSign
      | _ => .error .tooLarge
    else .ok (finite s m h).dropZeroSign
  | _ => .error .notFinite

/-- A double written with exactly two places. -/
def hundredths : Binary64 → String
  | finite s m _ => String.ofList (Decimal.signed s (toPlaces s m 2).plain)
  | infinite s => if s then "-inf" else "inf"
  | nan => "nan"

end Binary64

end PocketCalculator
