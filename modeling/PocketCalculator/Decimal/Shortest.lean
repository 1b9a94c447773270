import PocketCalculator.Decimal.Basic

/-! # Decimal: the shortest decimal that reads back

The points of the *grid* `k` are the multiples of `10 ^ k`. The shortest decimal of a double lies
on the coarsest grid on which one of the two neighbours of its value reads back as the double; of
two that do it is the nearer, and the even one at a tie.

* `onGrid?`: the point of one grid that reads back.
* `Binary64.shortestDecimal`: the first hit among the grids from no digit to seventeen.
* `Binary64.text`: a double as text, and `Binary64.shown`: the same number always in plain
  digits. -/

namespace PocketCalculator

/-- The natural number of units in which `c * 10 ^ k` reads. -/
def readUnits (c : Nat) (k : Int) : Nat :=
  nearest (c * tenTo k.toNat * unitsPerOne) (tenTo (-k).toNat)

/-- The two multiples of `10 ^ k` around the value of `m` units, the nearer one first. -/
def neighbours (m : Nat) (k : Int) : List Nat :=
  let a := m * tenTo (-k).toNat
  let d := unitsPerOne * tenTo k.toNat
  let near := halfEven a d
  [near, if near = a / d then near + 1 else a / d]

/-- The multiple of `10 ^ k` next to the value of `m` units that reads back as `m` units. -/
def onGrid? (m : Nat) (k : Int) : Option Nat :=
  (neighbours m k).find? fun c => readUnits c k = m

/-- A power of ten above the value of `m` units, `m` being positive: at most a hundred times too
large, since `30103 / 100000` is just above the decimal logarithm of two. -/
def scaleOf (m : Nat) : Int := ((m.log2 : Int) - 1073) * 30103 / 100000 + 2

/-- The grids on which the value of `m` units has from none to seventeen digits, the coarsest
first. -/
def grids (m : Nat) : List Int := (List.range 20).map fun (i : Nat) => scaleOf m - i

/-- The shortest coefficient and exponent that read back as `m` units; the exact value, should
none of the grids have one. -/
def shortestOf (m : Nat) : Nat × Int :=
  ((grids m).findSome? fun k => (onGrid? m k).map fun c => (c, k)).getD
    (m * Nat.pow 5 1074, -1074)

namespace Binary64

/-- The shortest decimal that reads back as a number of units, without zeros at its end. -/
def shortestDecimal (negative : Bool) (m : Nat) : Decimal :=
  if m = 0 then ⟨negative, 0, 0⟩
  else Decimal.strip ⟨negative, (shortestOf m).1, (shortestOf m).2⟩

/-- The text of a double: its shortest decimal with at least one place, in plain digits from
`0.0001` to below `10 ^ 16` and with an exponent outside. -/
def text : Binary64 → String
  | finite s m _ => String.ofList (Decimal.signed s (shortestDecimal s m).general)
  | infinite s => if s then "-inf" else "inf"
  | nan => "nan"

/-- The text of a double for the display: its shortest decimal in plain digits, without a point
where nothing follows it. A zero has no sign. -/
def shown : Binary64 → String
  | finite s m _ => String.ofList (Decimal.signed (s && m != 0) (shortestDecimal s m).plain)
  | infinite s => if s then "-Infinity" else "Infinity"
  | nan => "NaN"

end Binary64

end PocketCalculator
