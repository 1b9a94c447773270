import PocketCalculator.Proofs.Outcome

/-! # Signs

A minus in front of a product is a difference from zero, not a negative factor. The two differ in
the sign of a zero only (`SameValue`), since products and quotients are rounded alike on both sides
of zero (`neg_mul`, `neg_div`), and the display does not show the sign of a zero
(`Settles.of_sameValue`). -/

namespace PocketCalculator

namespace Binary64

theorem not_bne (s t : Bool) : ((!s) != t) = !(s != t) := by cases s <;> cases t <;> rfl

theorem ofQuotient_not (s : Bool) (a d : Nat) : ofQuotient (!s) a d = neg (ofQuotient s a d) := by
  unfold ofQuotient
  split <;> rfl

theorem isZero_neg (x : Binary64) : (neg x).isZero = x.isZero := by cases x <;> rfl

/-! ### Products and quotients -/

theorem neg_mul (x y : Binary64) : neg x * y = neg (x * y) := by
  show mul (neg x) y = neg (mul x y)
  match x, y with
  | nan, _ => rfl
  | infinite _, nan => rfl
  | infinite s, infinite t => exact congrArg infinite (not_bne s t)
  | infinite s, finite t n _ =>
    by_cases hn : n = 0
    · simp only [neg, mul, if_pos hn]
    · simp only [neg, mul, if_neg hn, not_bne]
  | finite _ _ _, nan => rfl
  | finite s m _, infinite t =>
    by_cases hm : m = 0
    · simp only [neg, mul, if_pos hm]
    · simp only [neg, mul, if_neg hm, not_bne]
  | finite s m _, finite t n _ =>
    show ofQuotient ((!s) != t) (m * n) unitsPerOne = neg (ofQuotient (s != t) (m * n) unitsPerOne)
    rw [not_bne, ofQuotient_not]

theorem neg_div (x y : Binary64) : neg x / y = neg (x / y) := by
  show div (neg x) y = neg (div x y)
  match x, y with
  | nan, _ => rfl
  | infinite _, nan => rfl
  | infinite _, infinite _ => rfl
  | infinite s, finite t _ _ => exact congrArg infinite (not_bne s t)
  | finite _ _ _, nan => rfl
  | finite s _ _, infinite t => exact congrArg zero (not_bne s t)
  | finite s m _, finite t n _ =>
    by_cases hn : n = 0
    · by_cases hm : m = 0
      · simp only [neg, div, if_pos hn, if_pos hm]
      · simp only [neg, div, if_pos hn, if_neg hm, not_bne]
    · show (if n = 0 then _ else ofQuotient ((!s) != t) (m * unitsPerOne) n) =
        neg (if n = 0 then _ else ofQuotient (s != t) (m * unitsPerOne) n)
      rw [if_neg hn, if_neg hn, not_bne, ofQuotient_not]

/-! ### Differences from zero -/

/-- A number other than zero is the double nearest to itself. -/
theorem ofSignedUnits_signedUnits (z : Bool) {s : Bool} {m : Nat} (hm : Representable m)
    (h0 : m ≠ 0) : ofSignedUnits z (finite s m hm).signedUnits = finite s m hm := by
  have hself : ofQuotient s m 1 = finite s m hm := by
    have h := ofQuotient_of_representable s (d := 1) (by decide) hm
    rwa [Nat.mul_one] at h
  have hne : (finite s m hm).signedUnits ≠ 0 := by
    cases s <;> simp only [signedUnits] <;> omega
  have hsign : decide ((finite s m hm).signedUnits < 0) = s := by
    cases s <;> simp only [signedUnits, Bool.false_eq_true, if_false, if_true] <;>
      simp only [decide_eq_true_eq, decide_eq_false_iff_not] <;> omega
  have habs : (finite s m hm).signedUnits.natAbs = m := by
    cases s <;> simp only [signedUnits, Bool.false_eq_true, if_false, if_true] <;> omega
  rw [ofSignedUnits, if_neg hne, hsign, habs, hself]

theorem zero_sub {x : Binary64} (hx : x.isZero = false) : zero false - x = neg x := by
  match x with
  | nan => rfl
  | infinite _ => rfl
  | finite s m hm =>
    have hm0 : m ≠ 0 := by
      rintro rfl
      cases hx
    show ofSignedUnits _ ((zero false).signedUnits + (finite (!s) m hm).signedUnits) = _
    rw [signedUnits_zero, Int.zero_add, ofSignedUnits_signedUnits _ hm hm0]
    rfl

theorem exists_of_isZero {x : Binary64} (hx : x.isZero = true) : ∃ s, x = zero s := by
  match x with
  | nan => cases hx
  | infinite _ => cases hx
  | finite s m hm =>
    obtain rfl : m = 0 := by simpa [isZero] using hx
    exact ⟨s, rfl⟩

/-- Two doubles have the same value: they are equal, or both are zero. -/
def SameValue (x y : Binary64) : Prop := x = y ∨ x.isZero = true ∧ y.isZero = true

theorem sameValue_zero_sub (x : Binary64) : SameValue (zero false - x) (neg x) := by
  by_cases hx : x.isZero = true
  · refine Or.inr ⟨?_, by rw [isZero_neg, hx]⟩
    obtain ⟨s, rfl⟩ := exists_of_isZero hx
    cases s <;> rfl
  · exact Or.inl (zero_sub (Bool.not_eq_true _ ▸ hx))

/-- The sign of a zero changes a sum at most in the sign of a zero. -/
theorem SameValue.add_right {x y : Binary64} (h : x.SameValue y) (z : Binary64) :
    (x + z).SameValue (y + z) := by
  rcases h with rfl | ⟨hx, hy⟩
  · exact Or.inl rfl
  obtain ⟨s, rfl⟩ := exists_of_isZero hx
  obtain ⟨t, rfl⟩ := exists_of_isZero hy
  show (add (zero s) z).SameValue (add (zero t) z)
  match z with
  | nan => exact Or.inl rfl
  | infinite _ => exact Or.inl rfl
  | finite u n hn =>
    have hadd : ∀ r, add (zero r) (finite u n hn) =
        ofSignedUnits (r && u) (finite u n hn).signedUnits := by
      intro r
      show ofSignedUnits (r && u) ((zero r).signedUnits + _) = _
      rw [signedUnits_zero, Int.zero_add]
    rw [hadd, hadd]
    unfold ofSignedUnits
    split
    · exact Or.inr ⟨rfl, rfl⟩
    · exact Or.inl rfl

/-! ### The display shows no sign of a zero -/

theorem roundForDisplay_of_isZero {places : Int} (hp : 0 ≤ places) {x : Binary64}
    (hx : x.isZero = true) : x.roundForDisplay places = .ok (zero false) := by
  obtain ⟨s, rfl⟩ := exists_of_isZero hx
  obtain ⟨h, hround⟩ := roundForDisplay_finite hp s representable_zero
  have hdrop : (finite s (displayUnits places 0) h).dropZeroSign = zero false :=
    if_pos (beq_iff_eq.mpr (displayUnits_zero hp))
  rw [zero, hround, hdrop]

end Binary64

theorem Settles.of_sameValue {settings : Settings} (hp : 0 ≤ settings.displayDecimals)
    {x y : Binary64} (h : x.SameValue y) {outcome : Outcome}
    (hs : Settles settings (some x) outcome) : Settles settings (some y) outcome := by
  -- zeros of different signs settle alike, for rounding drops the sign
  rcases h with rfl | ⟨hx, hy⟩
  · exact hs
  · have hfinite : ∀ z : Binary64, z.isZero = true → z.isFinite = true := by
      intro z hz
      cases z <;> first | rfl | cases hz
    cases hs with
    | overflow hinf => rw [hfinite x hx] at hinf; cases hinf
    | value _ hv =>
      rw [Binary64.roundForDisplay_of_isZero hp hx] at hv
      cases hv
      exact .value (hfinite y hy) (Binary64.roundForDisplay_of_isZero hp hy)

end PocketCalculator
