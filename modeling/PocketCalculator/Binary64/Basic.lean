/-! # Binary64: numbers as multiples of the least one

Every finite double is a whole number of *units*, one unit being `2 ^ -1074`, the least positive
double. So a finite double is a sign and a natural number with at most 53 significant bits.

* `Representable`: the naturals that are the units of some double.
* `halfEven`: the natural number nearest to a quotient, a tie going to the even one.
* `nearest`: a quotient rounded to at most 53 significant bits, by `halfEven`.
* `Binary64.ofQuotient`: the double nearest to a quotient of units; too large is infinite.

All arithmetic, all reading and all rounding of doubles is one exact quotient and one `nearest`. -/

namespace PocketCalculator

/-- A power of two. -/
def twoTo (n : Nat) : Nat := Nat.pow 2 n

theorem twoTo_pos (n : Nat) : 0 < twoTo n := Nat.two_pow_pos n

theorem twoTo_add (m n : Nat) : twoTo (m + n) = twoTo m * twoTo n := Nat.pow_add 2 m n

theorem twoTo_le {m n : Nat} (h : m ≤ n) : twoTo m ≤ twoTo n := Nat.pow_le_pow_right (by decide) h

theorem twoTo_dvd {m n : Nat} (h : m ≤ n) : twoTo m ∣ twoTo n := Nat.pow_dvd_pow 2 h

theorem log2_lt_iff {m n : Nat} (h : m ≠ 0) : m.log2 < n ↔ m < twoTo n := Nat.log2_lt h

theorem lt_twoTo_log2 (n : Nat) : n < twoTo (n.log2 + 1) := Nat.lt_log2_self

theorem log2_twoTo (n : Nat) : (twoTo n).log2 = n := Nat.log2_two_pow

/-- One is this many units. -/
def unitsPerOne : Nat := twoTo 1074

/-- The units of a finite double are below this bound, `2 ^ 1024` in value. -/
def unitsBound : Nat := twoTo 2098

/-- The unit in the last place of a number of units: 53 significant bits remain above it. -/
def lastPlace (n : Nat) : Nat := twoTo (n.log2 - 52)

/-- The naturals that are the units of a finite double. -/
def Representable (n : Nat) : Prop := lastPlace n ∣ n ∧ n < unitsBound

instance (n : Nat) : Decidable (Representable n) := by
  unfold Representable; infer_instance

/-- The natural number nearest to `a / d`, a tie going to the even one. -/
def halfEven (a d : Nat) : Nat :=
  if 2 * (a % d) < d then a / d
  else if d < 2 * (a % d) then a / d + 1
  else a / d + a / d % 2

/-- The multiple of the unit in the last place that is nearest to `a / d`. -/
def nearest (a d : Nat) : Nat :=
  halfEven a (d * lastPlace (a / d)) * lastPlace (a / d)

theorem lastPlace_pos (n : Nat) : 0 < lastPlace n := twoTo_pos _

theorem unitsPerOne_pos : 0 < unitsPerOne := twoTo_pos _

theorem unitsBound_pos : 0 < unitsBound := twoTo_pos _

theorem representable_zero : Representable 0 := ⟨Nat.dvd_zero _, unitsBound_pos⟩

theorem halfEven_le_succ (a d : Nat) : halfEven a d ≤ a / d + 1 := by
  unfold halfEven
  split
  · omega
  · split <;> omega

theorem le_halfEven (a d : Nat) : a / d ≤ halfEven a d := by
  unfold halfEven
  split
  · exact Nat.le_refl _
  · split <;> omega

/-- Rounding to the last place leaves at most 53 bits, or the next power of two. -/
theorem halfEven_lastPlace_le (a d : Nat) :
    halfEven a (d * lastPlace (a / d)) ≤ twoTo 53 := by
  refine Nat.le_trans (halfEven_le_succ _ _) (Nat.succ_le_of_lt ?_)
  rw [← Nat.div_div_eq_div_mul, Nat.div_lt_iff_lt_mul (lastPlace_pos _), lastPlace, ← twoTo_add]
  exact Nat.lt_of_lt_of_le (lt_twoTo_log2 _) (twoTo_le (by omega))

/-- What `nearest` returns is a multiple of its own last place. -/
theorem lastPlace_nearest_dvd (a d : Nat) : lastPlace (nearest a d) ∣ nearest a d := by
  have hk := halfEven_lastPlace_le a d
  unfold nearest
  generalize halfEven a (d * lastPlace (a / d)) = k at hk
  unfold lastPlace
  generalize (a / d).log2 - 52 = e
  rcases Nat.eq_zero_or_pos k with rfl | hpos
  · simp
  · rcases Nat.lt_or_eq_of_le hk with hlt | rfl
    · have hlog : (k * twoTo e).log2 < 53 + e := by
        rw [log2_lt_iff (Nat.ne_of_gt (Nat.mul_pos hpos (twoTo_pos e))), twoTo_add]
        exact Nat.mul_lt_mul_of_pos_right hlt (twoTo_pos e)
      exact Nat.dvd_trans (twoTo_dvd (by omega)) (Nat.dvd_mul_left _ _)
    · rw [← twoTo_add, log2_twoTo]
      exact twoTo_dvd (by omega)

theorem halfEven_mul_self {d : Nat} (hd : 0 < d) (k : Nat) : halfEven (k * d) d = k := by
  simp [halfEven, Nat.mul_div_cancel k hd, hd]

/-- The units of a double are the nearest to themselves. -/
theorem nearest_of_representable {m d : Nat} (hd : 0 < d) (hm : Representable m) :
    nearest (m * d) d = m := by
  obtain ⟨k, hk⟩ := hm.1
  have h : m * d = k * (d * lastPlace m) := by
    rw [Nat.mul_left_comm, ← Nat.mul_comm (lastPlace m), ← hk, Nat.mul_comm]
  rw [nearest, Nat.mul_div_cancel m hd, h,
    halfEven_mul_self (Nat.mul_pos hd (lastPlace_pos m)), Nat.mul_comm, ← hk]

/-- A double: a signed number of units, an infinity, or not a number. -/
inductive Binary64 where
  | finite (negative : Bool) (units : Nat) (representable : Representable units)
  | infinite (negative : Bool)
  | nan
  deriving DecidableEq

namespace Binary64

/-- The zero of a sign. -/
def zero (negative : Bool) : Binary64 := .finite negative 0 representable_zero

instance : Inhabited Binary64 := ⟨zero false⟩

/-- The double nearest to `a / d` units; from `2 ^ 1024` on, the infinity of the sign. -/
def ofQuotient (negative : Bool) (a d : Nat) : Binary64 :=
  if h : nearest a d < unitsBound then
    .finite negative (nearest a d) ⟨lastPlace_nearest_dvd a d, h⟩
  else .infinite negative

/-- Rounding keeps a double as it is. -/
theorem ofQuotient_of_representable {m d : Nat} (s : Bool) (hd : 0 < d) (hm : Representable m) :
    ofQuotient s (m * d) d = finite s m hm := by
  simp [ofQuotient, nearest_of_representable hd hm, hm.2]

/-- Whether the double is a number with a value: neither an infinity nor not a number. -/
def isFinite : Binary64 → Bool
  | finite .. => true
  | _ => false

/-- Whether the double is one of the two zeros. -/
def isZero : Binary64 → Bool
  | finite _ units _ => units == 0
  | _ => false

/-- The exact value of a finite double as a signed number of units; `0` for the others. -/
def signedUnits : Binary64 → Int
  | finite negative units _ => if negative then -(units : Int) else units
  | _ => 0

theorem exists_of_isFinite {x : Binary64} (hx : x.isFinite = true) :
    ∃ s m hm, x = finite s m hm := by
  cases x with
  | finite s m hm => exact ⟨s, m, hm, rfl⟩
  | infinite => cases hx
  | nan => cases hx

@[simp] theorem isFinite_zero (s : Bool) : (zero s).isFinite = true := rfl

@[simp] theorem isZero_zero (s : Bool) : (zero s).isZero = true := rfl

@[simp] theorem signedUnits_zero (s : Bool) : (zero s).signedUnits = 0 := by cases s <;> rfl

end Binary64

end PocketCalculator
