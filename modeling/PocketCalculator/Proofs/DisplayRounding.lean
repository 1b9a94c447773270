import PocketCalculator.Proofs.Redisplay
import PocketCalculator.Proofs.ShownNumber

/-! # What rounding for the display keeps

A number that is rounded for the display is shown with no more places than it was rounded to, and
stays as it is from then on; a number that is shown with few enough places is not changed, apart
from the sign of a zero (`roundForDisplay_fits`).

Rounding keeps the order of all finite numbers, and their signs (`roundForDisplay_mono`). A number
is left as it is if it lies on the grid of the places, which is to say that a point of this grid
reads back as it; otherwise it becomes what the nearest point of the grid reads back as
(`displayUnits`). Of two numbers on different sides of this rule the order is kept because reading
and rounding keep it: the point that reads back as the smaller number is not above the larger one,
so that it is not above the point nearest to the larger one either (`displayUnits_mono`). -/

namespace PocketCalculator

/-! ### The places of a rounded number -/

namespace Binary64

theorem IsShort.placesOf_le {places : Int} (hp : 0 ≤ places) {v : Binary64}
    (h : v.IsShort places) : (placesOf v.shown : Int) ≤ places := by
  obtain ⟨s, m, hm, rfl⟩ := exists_of_isFinite h.isFinite
  have hplaces := h.2
  rw [placesOf_shown, Decimal.places]
  omega

theorem roundForDisplay_of_placesOf_le {places : Int} {x : Binary64} (hx : x.isFinite = true)
    (h : (placesOf x.shown : Int) ≤ places) : x.roundForDisplay places = .ok x.dropZeroSign := by
  obtain ⟨s, m, hm, rfl⟩ := exists_of_isFinite hx
  rw [placesOf_shown, Decimal.places] at h
  exact roundForDisplay_of_le hm (by omega)

/-- **What is rounded for the display fits it:** a finite number is rounded without failure, to a
finite number that is not a negative zero, that is shown with no more places and that is not changed
by rounding again. A number with few enough places is kept, a zero without its sign. -/
theorem roundForDisplay_fits {places : Int} (hp : 0 ≤ places) {x : Binary64}
    (hx : x.isFinite = true) :
    ∃ w, x.roundForDisplay places = .ok w ∧ w.isFinite = true ∧ w ≠ zero true ∧
      (placesOf w.shown : Int) ≤ places ∧ w.roundForDisplay places = .ok w ∧
      ((placesOf x.shown : Int) ≤ places → w = x.dropZeroSign) := by
  obtain ⟨w, hround, hfinite, hzero⟩ := exists_roundForDisplay hp hx
  refine ⟨w, hround, hfinite, hzero, (isShort_of_roundForDisplay hp hround).placesOf_le hp,
    roundForDisplay_idem hp hround, fun hshort => ?_⟩
  rw [roundForDisplay_of_placesOf_le hx hshort] at hround
  cases hround
  rfl

/-- The double nearest to `0.30000000000000004`, which is the sum of `0.1` and `0.2`. -/
def almostThreeTenths : Binary64 := Decimal.toBinary64 ⟨false, 30000000000000004, -17⟩

theorem roundForDisplay_fits_threeTenths :
    0 ≤ (8 : Int) ∧ almostThreeTenths.isFinite = true ∧ placesOf almostThreeTenths.shown = 17 ∧
      ∃ w, almostThreeTenths.roundForDisplay 8 = .ok w ∧ w.isFinite = true ∧ w ≠ zero true ∧
        (placesOf w.shown : Int) ≤ 8 ∧ w.roundForDisplay 8 = .ok w ∧
        ((placesOf almostThreeTenths.shown : Int) ≤ 8 → w = almostThreeTenths.dropZeroSign) := by
  have hp : 0 ≤ (8 : Int) := by decide
  have hfinite : almostThreeTenths.isFinite = true := by decide +kernel
  exact ⟨hp, hfinite, by decide +kernel, roundForDisplay_fits hp hfinite⟩

end Binary64

/-! ### Points of a finer grid -/

theorem nearest_congr {a d a' d' : Nat} (hd : 0 < d) (hd' : 0 < d') (h : a * d' = a' * d) :
    nearest a d = nearest a' d' :=
  Nat.le_antisymm (nearest_mono hd hd' (Nat.le_of_eq h)) (nearest_mono hd' hd (Nat.le_of_eq h.symm))

theorem readUnits_finer {k k' : Int} (h : k' ≤ k) (c : Nat) :
    readUnits (c * tenTo (k - k').toNat) k' = readUnits c k := by
  have hexponents : tenTo (k - k').toNat * tenTo k'.toNat * tenTo (-k).toNat =
      tenTo k.toNat * tenTo (-k').toNat := by
    rw [← tenTo_add, ← tenTo_add, ← tenTo_add]
    exact congrArg tenTo (by omega)
  refine nearest_congr (tenTo_pos _) (tenTo_pos _) ?_
  calc c * tenTo (k - k').toNat * tenTo k'.toNat * unitsPerOne * tenTo (-k).toNat
      = c * tenTo (k - k').toNat * tenTo k'.toNat * tenTo (-k).toNat * unitsPerOne :=
        Nat.mul_right_comm _ _ _
    _ = c * (tenTo (k - k').toNat * tenTo k'.toNat * tenTo (-k).toNat) * unitsPerOne := by
        rw [Nat.mul_assoc c, Nat.mul_assoc c]
    _ = c * tenTo k.toNat * tenTo (-k').toNat * unitsPerOne := by
        rw [hexponents, ← Nat.mul_assoc c]
    _ = c * tenTo k.toNat * unitsPerOne * tenTo (-k').toNat := Nat.mul_right_comm _ _ _

variable {places : Int} {m n c : Nat}

/-! ### The order of units -/

theorem pointUnits_mono (h : m ≤ n) : pointUnits places m ≤ pointUnits places n :=
  readUnits_mono (halfEven_mono_left _ (Nat.mul_le_mul_right _ h)) _

theorem exists_reads (hm : Representable m)
    (h : ¬ places < -(Binary64.shortestDecimal false m).exponent) :
    ∃ c, readUnits c (-places) = m := by
  have hself : readUnits (Binary64.shortestDecimal false m).coefficient
      (Binary64.shortestDecimal false m).exponent = m :=
    Decimal.readUnits_of_toBinary64 (Binary64.toBinary64_shortestDecimal false hm)
  generalize Binary64.shortestDecimal false m = d at h hself
  exact ⟨_, (readUnits_finer (k := d.exponent) (by omega) d.coefficient).trans hself⟩

section Reads
variable (hp : 0 ≤ places)
include hp

/-- A point reads below a number only if it lies below it. -/
theorem le_mul_of_reads_lt (hn : Representable n) (h : readUnits c (-places) < n) :
    c * unitsPerOne ≤ n * tenTo places.toNat := by
  have hneg : (-places).toNat = 0 := by omega
  refine Nat.le_of_not_lt fun hlt => ?_
  have hread : n ≤ readUnits c (-places) := by
    refine le_readUnits_of_le_mul hn ?_
    rw [Int.neg_neg, hneg, tenTo_zero, Nat.mul_one]
    exact Nat.le_of_lt hlt
  omega

theorem mul_le_of_lt_reads (hm : Representable m) (h : m < readUnits c (-places)) :
    m * tenTo places.toNat ≤ c * unitsPerOne := by
  have hneg : (-places).toNat = 0 := by omega
  refine Nat.le_of_not_lt fun hlt => ?_
  have hread : readUnits c (-places) ≤ m := by
    refine readUnits_le_of_mul_le hm ?_
    rw [Int.neg_neg, hneg, tenTo_zero, Nat.mul_one]
    exact Nat.le_of_lt hlt
  omega

theorem le_pointUnits (hn : Representable n) (h : readUnits c (-places) < n) :
    readUnits c (-places) ≤ pointUnits places n := by
  have hround := halfEven_mono_left unitsPerOne (le_mul_of_reads_lt hp hn h)
  rw [halfEven_mul_self unitsPerOne_pos] at hround
  exact readUnits_mono hround _

theorem pointUnits_le (hm : Representable m) (h : m < readUnits c (-places)) :
    pointUnits places m ≤ readUnits c (-places) := by
  have hround := halfEven_mono_left unitsPerOne (mul_le_of_lt_reads hp hm h)
  rw [halfEven_mul_self unitsPerOne_pos] at hround
  exact readUnits_mono hround _

/-- **Rounding for the display keeps the order of units.** -/
theorem displayUnits_mono (hm : Representable m) (hn : Representable n) (h : m ≤ n) :
    displayUnits places m ≤ displayUnits places n := by
  rcases Nat.eq_or_lt_of_le h with rfl | hlt
  · exact Nat.le_refl _
  unfold displayUnits
  by_cases hshort : places < -(Binary64.shortestDecimal false m).exponent
  · rw [if_pos hshort]
    by_cases hshort' : places < -(Binary64.shortestDecimal false n).exponent
    · rw [if_pos hshort']
      exact pointUnits_mono h
    · rw [if_neg hshort']
      obtain ⟨c, rfl⟩ := exists_reads hn hshort'
      exact pointUnits_le hp hm hlt
  · rw [if_neg hshort]
    by_cases hshort' : places < -(Binary64.shortestDecimal false n).exponent
    · rw [if_pos hshort']
      obtain ⟨c, rfl⟩ := exists_reads hm hshort
      exact le_pointUnits hp hn hlt
    · rw [if_neg hshort']
      exact h

end Reads

/-! ### The order of numbers -/

namespace Binary64

theorem signedUnits_dropZeroSign (x : Binary64) : x.dropZeroSign.signedUnits = x.signedUnits := by
  unfold dropZeroSign
  split
  · next hx =>
    obtain ⟨s, rfl⟩ := exists_of_isZero hx
    rw [signedUnits_zero, signedUnits_zero]
  · rfl

theorem dropZeroSign_neg (x : Binary64) : x.dropZeroSign.neg.dropZeroSign = x.neg.dropZeroSign := by
  by_cases hx : x.isZero = true
  · obtain ⟨s, rfl⟩ := exists_of_isZero hx
    rfl
  · have hself : x.dropZeroSign = x := if_neg hx
    rw [hself]

theorem signedUnits_displayUnits_mono (hp : 0 ≤ places) {s t : Bool} (hm : Representable m)
    (hn : Representable n) (hv : Representable (displayUnits places m))
    (hw : Representable (displayUnits places n))
    (h : (finite s m hm).signedUnits ≤ (finite t n hn).signedUnits) :
    (finite s (displayUnits places m) hv).signedUnits ≤
      (finite t (displayUnits places n) hw).signedUnits := by
  have hzero := displayUnits_zero hp
  cases s <;> cases t <;> simp only [signedUnits, if_true, if_false, Bool.false_eq_true] at h ⊢
  · have hle := displayUnits_mono hp hm hn (by omega)
    omega
  · -- the smaller number is not negative and the larger not positive: both are zeros
    obtain ⟨rfl, rfl⟩ : m = 0 ∧ n = 0 := by omega
    omega
  · omega
  · have hle := displayUnits_mono hp hn hm (by omega)
    omega

/-- **Rounding for the display keeps the order and the sign:** the smaller of two finite numbers
does not become larger than the other, the negative number becomes the negative of what the number
becomes, and a zero has no sign. A number with few enough places is kept. -/
theorem roundForDisplay_mono (hp : 0 ≤ places) {x y : Binary64} (hx : x.isFinite = true)
    (hy : y.isFinite = true) (h : x.signedUnits ≤ y.signedUnits) :
    ∃ v w, x.roundForDisplay places = .ok v ∧ y.roundForDisplay places = .ok w ∧
      v.isFinite = true ∧ w.isFinite = true ∧ v.signedUnits ≤ w.signedUnits ∧
      x.neg.roundForDisplay places = .ok v.neg.dropZeroSign ∧ v ≠ zero true ∧ w ≠ zero true ∧
      ((placesOf x.shown : Int) ≤ places → v = x.dropZeroSign) := by
  obtain ⟨s, m, hm, rfl⟩ := exists_of_isFinite hx
  obtain ⟨t, n, hn, rfl⟩ := exists_of_isFinite hy
  obtain ⟨hv, hround⟩ := roundForDisplay_finite hp s hm
  obtain ⟨hw, hround'⟩ := roundForDisplay_finite hp t hn
  obtain ⟨hv', hneg⟩ := roundForDisplay_finite hp (!s) hm
  refine ⟨_, _, hround, hround', (dropZeroSign_finite rfl).1, (dropZeroSign_finite rfl).1, ?_, ?_,
    (dropZeroSign_finite rfl).2, (dropZeroSign_finite rfl).2, fun hshort => ?_⟩
  · rw [signedUnits_dropZeroSign, signedUnits_dropZeroSign]
    exact signedUnits_displayUnits_mono hp hm hn hv hw h
  · rw [dropZeroSign_neg]
    exact hneg
  · rw [roundForDisplay_of_placesOf_le hx hshort] at hround
    exact (Except.ok.inj hround).symm

/-- The double nearest to `-0.6666666666666666`, which lies above `-0.66666667`. -/
def unroundedTwoThirds : Binary64 := Decimal.toBinary64 ⟨true, 6666666666666666, -16⟩

theorem roundForDisplay_mono_twoThirds :
    0 ≤ (8 : Int) ∧ negativeTwoThirds.isFinite = true ∧ unroundedTwoThirds.isFinite = true ∧
      negativeTwoThirds.signedUnits ≤ unroundedTwoThirds.signedUnits ∧
      ∃ v w, negativeTwoThirds.roundForDisplay 8 = .ok v ∧
        unroundedTwoThirds.roundForDisplay 8 = .ok w ∧ v.isFinite = true ∧ w.isFinite = true ∧
        v.signedUnits ≤ w.signedUnits ∧
        negativeTwoThirds.neg.roundForDisplay 8 = .ok v.neg.dropZeroSign ∧
        v ≠ zero true ∧ w ≠ zero true ∧
        ((placesOf negativeTwoThirds.shown : Int) ≤ 8 → v = negativeTwoThirds.dropZeroSign) := by
  have hp : 0 ≤ (8 : Int) := by decide
  have hx : negativeTwoThirds.isFinite = true := by decide +kernel
  have hy : unroundedTwoThirds.isFinite = true := by decide +kernel
  have hle : negativeTwoThirds.signedUnits ≤ unroundedTwoThirds.signedUnits := by decide +kernel
  exact ⟨hp, hx, hy, hle, roundForDisplay_mono hp hx hy hle⟩

end Binary64

end PocketCalculator
