import PocketCalculator.Decimal.Places
import PocketCalculator.Proofs.CoarsestGrid

/-! # Rounding for the display

A finite double is rounded only if its shortest decimal has places. Then it is no whole number, so
it is below `2 ^ 52`, and a multiple of a power of ten near it is far below the largest double: the
point of the grid next to it reads as a double (`representable_pointUnits`), and the rounding cannot
fail. What is done depends on the units alone (`displayUnits`), and a zero loses its sign
(`roundForDisplay_finite`). So the result is finite and not a negative zero
(`exists_roundForDisplay`). -/

namespace PocketCalculator

theorem lastPlace_le (n : Nat) : lastPlace n ≤ n + 1 := by
  rcases Nat.eq_zero_or_pos n with rfl | hn
  · decide
  · calc lastPlace n ≤ twoTo n.log2 := twoTo_le (Nat.sub_le _ _)
      _ ≤ n := Nat.log2_self_le (Nat.ne_of_gt hn)
      _ ≤ n + 1 := Nat.le_succ n

theorem nearest_le (a d : Nat) : nearest a d ≤ 2 * (a / d) + 1 := by
  have hround := halfEven_le_succ a (d * lastPlace (a / d))
  have hdiv : a / d / lastPlace (a / d) * lastPlace (a / d) ≤ a / d := Nat.div_mul_le_self _ _
  have hplace := lastPlace_le (a / d)
  calc nearest a d ≤ (a / (d * lastPlace (a / d)) + 1) * lastPlace (a / d) :=
        Nat.mul_le_mul_right _ hround
    _ = a / d / lastPlace (a / d) * lastPlace (a / d) + lastPlace (a / d) := by
        rw [Nat.succ_mul, Nat.div_div_eq_div_mul]
    _ ≤ 2 * (a / d) + 1 := by omega

theorem unitsPerOne_dvd {m : Nat} (hm : Representable m) (h : twoTo 1126 ≤ m) :
    unitsPerOne ∣ m := by
  have hne : m ≠ 0 := Nat.ne_of_gt (Nat.lt_of_lt_of_le (twoTo_pos _) h)
  have hlog : 1126 ≤ m.log2 := Nat.le_of_not_lt fun hlt =>
    absurd ((log2_lt_iff hne).mp hlt) (Nat.not_lt.mpr h)
  exact Nat.dvd_trans (twoTo_dvd (by omega)) hm.1

theorem lt_of_exponent_neg {s : Bool} {m : Nat} (hm : Representable m)
    (h : (Binary64.shortestDecimal s m).exponent < 0) : m < twoTo 1126 := by
  refine Nat.lt_of_not_le fun hle => ?_
  have := exponent_shortestDecimal_nonneg s hm (unitsPerOne_dvd hm hle)
  omega

/-! ### The units of a rounded number -/

/-- The units in which the point of the grid `-places` nearest to `m` units reads. -/
def pointUnits (places : Int) (m : Nat) : Nat :=
  readUnits (halfEven (m * tenTo places.toNat) unitsPerOne) (-places)

/-- The units of the number of `m` units when it is rounded for the display. -/
def displayUnits (places : Int) (m : Nat) : Nat :=
  if places < -(Binary64.shortestDecimal false m).exponent then pointUnits places m else m

section Units
variable {places : Int} {m : Nat} (hp : 0 ≤ places)
include hp

theorem toPlaces_eq (s : Bool) (m : Nat) :
    toPlaces s m places = ⟨s, halfEven (m * tenTo places.toNat) unitsPerOne, -places⟩ := by
  have hmax : max places (-400) = places := by omega
  have hneg : (-places).toNat = 0 := by omega
  unfold toPlaces
  simp only [hmax, hneg, tenTo_zero, Nat.mul_one]

theorem displayUnits_zero : displayUnits places 0 = 0 := by
  rw [displayUnits, Binary64.shortestDecimal_zero, if_neg]
  exact Int.not_lt.mpr hp

/-- **The multiple of a power of ten next to a small double** reads as a double. -/
theorem representable_pointUnits (hm : m < twoTo 1126) : Representable (pointUnits places m) := by
  have hneg : (-places).toNat = 0 := by omega
  have hu : unitsPerOne ≤ twoTo 1126 := twoTo_le (by decide)
  have hbound : 8 * twoTo 1126 ≤ unitsBound := by decide +kernel
  unfold pointUnits readUnits
  rw [hneg, Int.neg_neg, tenTo_zero, Nat.mul_one]
  have hround := halfEven_le_succ (m * tenTo places.toNat) unitsPerOne
  have hdiv := Nat.div_mul_le_self (m * tenTo places.toNat) unitsPerOne
  -- the nearest multiple is at most one unit of the last place, hence at most `1`, too large
  have hquot : halfEven (m * tenTo places.toNat) unitsPerOne * unitsPerOne / tenTo places.toNat ≤
      m + unitsPerOne := by
    refine Nat.div_le_of_le_mul ?_
    calc halfEven (m * tenTo places.toNat) unitsPerOne * unitsPerOne
        ≤ (m * tenTo places.toNat / unitsPerOne + 1) * unitsPerOne := Nat.mul_le_mul_right _ hround
      _ = m * tenTo places.toNat / unitsPerOne * unitsPerOne + unitsPerOne := Nat.succ_mul _ _
      _ ≤ m * tenTo places.toNat + unitsPerOne * tenTo places.toNat :=
          Nat.add_le_add hdiv (Nat.le_mul_of_pos_right _ (tenTo_pos _))
      _ = tenTo places.toNat * (m + unitsPerOne) := by
          rw [← Nat.add_mul, Nat.mul_comm]
  have hle := nearest_le (halfEven (m * tenTo places.toNat) unitsPerOne * unitsPerOne)
    (tenTo places.toNat)
  exact ⟨lastPlace_nearest_dvd _ _, by omega⟩

end Units

namespace Binary64

theorem dropZeroSign_finite {x : Binary64} (hx : x.isFinite = true) :
    x.dropZeroSign.isFinite = true ∧ x.dropZeroSign ≠ zero true := by
  unfold dropZeroSign
  rcases hz : x.isZero with _ | _
  · refine ⟨hx, ?_⟩
    rintro rfl
    cases hz
  · exact ⟨rfl, by simp [zero]⟩

theorem isFinite_of_roundForDisplay {places : Int} {x v : Binary64}
    (h : x.roundForDisplay places = .ok v) : v.isFinite = true := by
  unfold roundForDisplay at h
  split at h
  · split at h
    · split at h
      · cases h
        exact (dropZeroSign_finite rfl).1
      · cases h
    · cases h
      exact (dropZeroSign_finite rfl).1
  · cases h

theorem exponent_shortestDecimal (s : Bool) (m : Nat) :
    (shortestDecimal s m).exponent = (shortestDecimal false m).exponent := by
  rw [shortestDecimal_signed s false]

theorem roundForDisplay_of_le {places : Int} {s : Bool} {m : Nat} (hm : Representable m)
    (h : -(shortestDecimal s m).exponent ≤ places) :
    (finite s m hm).roundForDisplay places = .ok (finite s m hm).dropZeroSign := by
  unfold roundForDisplay
  exact if_neg (Int.not_lt.mpr h)

/-- **Rounding for the display** acts on the units; a zero loses its sign. -/
theorem roundForDisplay_finite {places : Int} (hp : 0 ≤ places) (s : Bool) {m : Nat}
    (hm : Representable m) :
    ∃ h : Representable (displayUnits places m),
      (finite s m hm).roundForDisplay places =
        .ok (finite s (displayUnits places m) h).dropZeroSign := by
  have hsign := exponent_shortestDecimal s m
  unfold displayUnits roundForDisplay
  simp only [hsign]
  split
  · next hlt =>
    have hpoint := representable_pointUnits hp (lt_of_exponent_neg (s := false) hm (by omega))
    refine ⟨hpoint, ?_⟩
    rw [toPlaces_eq hp, Decimal.toBinary64_of_readUnits s hpoint rfl]
  · exact ⟨hm, rfl⟩

/-- **Rounding for the display does not fail on a finite value**, and gives one without a negative
zero. -/
theorem exists_roundForDisplay {places : Int} (hp : 0 ≤ places) {x : Binary64}
    (hx : x.isFinite = true) :
    ∃ v, x.roundForDisplay places = .ok v ∧ v.isFinite = true ∧ v ≠ zero true := by
  obtain ⟨s, m, hm, rfl⟩ := exists_of_isFinite hx
  obtain ⟨h, hround⟩ := roundForDisplay_finite hp s hm
  exact ⟨_, hround, dropZeroSign_finite rfl⟩

end Binary64

end PocketCalculator
