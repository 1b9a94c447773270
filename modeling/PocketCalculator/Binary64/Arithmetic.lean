import PocketCalculator.Binary64.Basic

/-! # Binary64: the four operations

Each operation is its exact result rounded once by `Binary64.ofQuotient`. Infinities and not a
number follow IEEE 754: `add`, `sub`, `mul`, `div` on them are read off their signs. -/

namespace PocketCalculator.Binary64

/-- The number of the other sign. -/
def neg : Binary64 → Binary64
  | finite s m h => finite (!s) m h
  | infinite s => infinite (!s)
  | nan => nan

/-- A signed whole number of units, rounded; an exact zero takes the sign `s`. -/
def ofSignedUnits (s : Bool) (n : Int) : Binary64 :=
  if n = 0 then zero s else ofQuotient (decide (n < 0)) n.natAbs 1

/-- The sum; an exact zero is negative only as the sum of two negatives. -/
def add : Binary64 → Binary64 → Binary64
  | nan, _ => nan
  | _, nan => nan
  | infinite s, infinite t => if s = t then infinite s else nan
  | infinite s, finite .. => infinite s
  | finite .., infinite t => infinite t
  | x@(finite s _ _), y@(finite t _ _) =>
    ofSignedUnits (s && t) (x.signedUnits + y.signedUnits)

/-- The difference, as the sum with the negated number. -/
def sub (x y : Binary64) : Binary64 := add x (neg y)

/-- The product; the sign is negative when the two signs differ. -/
def mul : Binary64 → Binary64 → Binary64
  | nan, _ => nan
  | _, nan => nan
  | infinite s, infinite t => infinite (s != t)
  | infinite s, finite t n _ => if n = 0 then nan else infinite (s != t)
  | finite s m _, infinite t => if m = 0 then nan else infinite (s != t)
  | finite s m _, finite t n _ => ofQuotient (s != t) (m * n) unitsPerOne

/-- The quotient; a number other than zero over zero is infinite. -/
def div : Binary64 → Binary64 → Binary64
  | nan, _ => nan
  | _, nan => nan
  | infinite _, infinite _ => nan
  | infinite s, finite t _ _ => infinite (s != t)
  | finite s _ _, infinite t => zero (s != t)
  | finite s m _, finite t n _ =>
    if n = 0 then (if m = 0 then nan else infinite (s != t))
    else ofQuotient (s != t) (m * unitsPerOne) n

instance : Neg Binary64 := ⟨neg⟩
instance : Add Binary64 := ⟨add⟩
instance : Sub Binary64 := ⟨sub⟩
instance : Mul Binary64 := ⟨mul⟩
instance : Div Binary64 := ⟨div⟩

theorem neg_neg (x : Binary64) : neg (neg x) = x := by cases x <;> simp [neg]

end PocketCalculator.Binary64
