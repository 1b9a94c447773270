import PocketCalculator.Decimal.Shortest

/-! # The shortest decimal reads back

The double nearest to a quotient depends on its value only (`ofQuotient_mul_right`), so the zeros
at the end of a coefficient do not matter (`toBinary64_strip`). Whichever grid the shortest decimal
of a double lies on, it reads back as the double (`toBinary64_shortestDecimal`). -/

namespace PocketCalculator

/-! ### Quotients of one value -/

theorem halfEven_mul_right {t : Nat} (ht : 0 < t) (a d : Nat) :
    halfEven (a * t) (d * t) = halfEven a d := by
  have hlt : ∀ x y : Nat, x * t < y * t ↔ x < y := fun x y => Nat.mul_lt_mul_right ht
  have h2 : 2 * (a % d * t) = 2 * (a % d) * t := (Nat.mul_assoc _ _ _).symm
  simp only [halfEven, Nat.mul_div_mul_right _ _ ht, Nat.mul_mod_mul_right, h2, hlt]

theorem nearest_mul_right {t : Nat} (ht : 0 < t) (a d : Nat) :
    nearest (a * t) (d * t) = nearest a d := by
  have h : d * t * lastPlace (a / d) = d * lastPlace (a / d) * t := Nat.mul_right_comm _ _ _
  rw [nearest, Nat.mul_div_mul_right _ _ ht, h, halfEven_mul_right ht]
  rfl

theorem Binary64.ofQuotient_congr (s : Bool) {a d a' d' : Nat} (h : nearest a d = nearest a' d') :
    ofQuotient s a d = ofQuotient s a' d' := by
  unfold ofQuotient
  simp only [h]

theorem Binary64.ofQuotient_mul_right (s : Bool) {t : Nat} (ht : 0 < t) (a d : Nat) :
    ofQuotient s (a * t) (d * t) = ofQuotient s a d :=
  ofQuotient_congr s (nearest_mul_right ht a d)

namespace Decimal

/-- A zero at the end of the coefficient may be moved into the exponent: the two quotients are the
same up to a common factor. -/
theorem exists_factor_mul_ten (c : Nat) (k : Int) : ∃ t, 0 < t ∧
    c * 10 * tenTo k.toNat = c * tenTo (k + 1).toNat * t ∧
      tenTo (-k).toNat = tenTo (-(k + 1)).toNat * t := by
  rcases Int.lt_or_le k 0 with hk | hk
  · have h1 : k.toNat = 0 := by omega
    have h2 : (k + 1).toNat = 0 := by omega
    have h3 : (-k).toNat = (-(k + 1)).toNat + 1 := by omega
    refine ⟨10, by decide, ?_, ?_⟩
    · rw [h1, h2, Nat.mul_right_comm]
    · rw [h3, tenTo_add, tenTo_one]
  · have h1 : (k + 1).toNat = k.toNat + 1 := by omega
    have h2 : (-k).toNat = 0 := by omega
    have h3 : (-(k + 1)).toNat = 0 := by omega
    refine ⟨1, by decide, ?_, ?_⟩
    · rw [h1, tenTo_add, tenTo_one, Nat.mul_one, Nat.mul_right_comm, Nat.mul_assoc]
    · rw [h2, h3, Nat.mul_one]

theorem toBinary64_mul_ten (s : Bool) (c : Nat) (k : Int) :
    toBinary64 ⟨s, c * 10, k⟩ = toBinary64 ⟨s, c, k + 1⟩ := by
  obtain ⟨t, ht, hnumerator, hdenominator⟩ := exists_factor_mul_ten c k
  unfold toBinary64
  simp only
  rw [hnumerator, hdenominator, Nat.mul_right_comm _ t]
  exact Binary64.ofQuotient_mul_right s ht _ _

theorem toBinary64_stripZeros (s : Bool) (c : Nat) (k : Int) :
    toBinary64 ⟨s, (stripZeros c k).1, (stripZeros c k).2⟩ = toBinary64 ⟨s, c, k⟩ := by
  fun_induction stripZeros c k with
  | case1 => rfl
  | case2 c k hc ih =>
    have h10 : c / 10 * 10 = c := by omega
    rw [ih, ← toBinary64_mul_ten, h10]

theorem toBinary64_strip (d : Decimal) : d.strip.toBinary64 = d.toBinary64 :=
  toBinary64_stripZeros d.negative d.coefficient d.exponent

theorem exponent_strip (s : Bool) (c : Nat) (k : Int) :
    (strip ⟨s, c, k⟩).exponent = (stripZeros c k).2 := rfl

theorem coefficient_strip (s : Bool) (c : Nat) (k : Int) :
    (strip ⟨s, c, k⟩).coefficient = (stripZeros c k).1 := rfl

theorem le_exponent_stripZeros {c : Nat} (hc : c ≠ 0) (k : Int) {j : Nat} (hj : tenTo j ∣ c) :
    k + j ≤ (stripZeros c k).2 := by
  fun_induction stripZeros c k generalizing j with
  | case1 c k h =>
    rcases h with h | h
    · exact absurd h hc
    · rcases j with _ | j
      · simp
      · rw [tenTo_add] at hj
        exact absurd (Nat.mod_eq_zero_of_dvd (Nat.dvd_trans (Nat.dvd_mul_left 10 _) hj)) h
  | case2 c k h ih =>
    have h10 : c / 10 * 10 = c := by omega
    have hne : c / 10 ≠ 0 := by omega
    rcases j with _ | j
    · have := ih hne (j := 0) (Nat.one_dvd _)
      omega
    · rw [tenTo_add, ← h10] at hj
      have := ih hne (Nat.dvd_of_mul_dvd_mul_right (by decide) hj)
      omega

theorem strip_signed (s t : Bool) (c : Nat) (k : Int) :
    strip ⟨s, c, k⟩ = { strip ⟨t, c, k⟩ with negative := s } := rfl

theorem stripZeros_mod_ten {c : Nat} (hc : c ≠ 0) (k : Int) : (stripZeros c k).1 % 10 ≠ 0 := by
  fun_induction stripZeros c k with
  | case1 c k h => exact h.resolve_left hc
  | case2 c k h ih => exact ih (by omega)

end Decimal

/-! ### The shortest decimal -/

theorem Binary64.ofQuotient_eq_finite (s : Bool) {m a d : Nat} (hm : Representable m)
    (h : nearest a d = m) : ofQuotient s a d = finite s m hm := by
  subst h
  exact dif_pos hm.2

theorem nearest_zero {d : Nat} (hd : 0 < d) : nearest 0 d = 0 := by
  have h := nearest_of_representable hd representable_zero
  rwa [Nat.zero_mul] at h

theorem ne_zero_of_reads {m c : Nat} {k : Int} (h0 : m ≠ 0) (h : readUnits c k = m) : c ≠ 0 := by
  rintro rfl
  rw [readUnits, Nat.zero_mul, Nat.zero_mul, nearest_zero (tenTo_pos _)] at h
  exact h0 h.symm

theorem Decimal.toBinary64_of_readUnits (s : Bool) {m c : Nat} {k : Int} (hm : Representable m)
    (h : readUnits c k = m) : toBinary64 ⟨s, c, k⟩ = .finite s m hm := by
  unfold readUnits at h
  unfold toBinary64
  exact Binary64.ofQuotient_eq_finite s hm h

theorem Decimal.readUnits_of_toBinary64 {s t : Bool} {c m : Nat} {k : Int} {hm : Representable m}
    (h : toBinary64 ⟨s, c, k⟩ = .finite t m hm) : readUnits c k = m := by
  unfold toBinary64 Binary64.ofQuotient at h
  split at h
  · cases h
    rfl
  · cases h

theorem onGrid?_reads {m c : Nat} {k : Int} (h : onGrid? m k = some c) : readUnits c k = m := by
  simpa using List.find?_some h

/-- The exact value of `m` units in powers of ten. -/
theorem five_mul_two : Nat.pow 5 1074 * unitsPerOne = tenTo 1074 := by decide +kernel

/-- Either a grid has the shortest decimal, the first one with a hit, or it is the exact value. -/
theorem shortestOf_cases (m : Nat) :
    (∃ coarser k finer, grids m = coarser ++ k :: finer ∧
      onGrid? m k = some (shortestOf m).1 ∧ (shortestOf m).2 = k ∧
      ∀ k' ∈ coarser, onGrid? m k' = none) ∨
    (∀ k ∈ grids m, onGrid? m k = none) ∧ shortestOf m = (m * Nat.pow 5 1074, -1074) := by
  unfold shortestOf
  rcases h : (grids m).findSome? fun k => (onGrid? m k).map fun c => (c, k) with _ | pair
  · refine Or.inr ⟨fun k hk => ?_, rfl⟩
    simpa using List.findSome?_eq_none_iff.mp h k hk
  · obtain ⟨coarser, k, finer, hl, hk, hnone⟩ := List.findSome?_eq_some_iff.mp h
    obtain ⟨c, hc, rfl⟩ := Option.map_eq_some_iff.mp hk
    exact Or.inl ⟨coarser, k, finer, hl, hc, rfl, fun k' hk' => by simpa using hnone k' hk'⟩

theorem readUnits_shortestOf {m : Nat} (hm : Representable m) :
    readUnits (shortestOf m).1 (shortestOf m).2 = m := by
  rcases shortestOf_cases m with ⟨_, k, _, -, hc, hk, -⟩ | ⟨-, h⟩
  · rw [hk]; exact onGrid?_reads hc
  · have hexact : m * Nat.pow 5 1074 * tenTo (-1074 : Int).toNat * unitsPerOne =
        m * tenTo (1074 : Nat) := by
      have h1 : tenTo (-1074 : Int).toNat = 1 := rfl
      rw [h1, Nat.mul_one, Nat.mul_assoc, five_mul_two]
    rw [h, readUnits, hexact]
    exact nearest_of_representable (tenTo_pos _) hm

theorem Binary64.shortestDecimal_zero (s : Bool) : shortestDecimal s 0 = ⟨s, 0, 0⟩ := if_pos rfl

/-- **The shortest decimal of a double reads back as the double.** -/
theorem Binary64.toBinary64_shortestDecimal (s : Bool) {m : Nat} (hm : Representable m) :
    (shortestDecimal s m).toBinary64 = finite s m hm := by
  unfold shortestDecimal
  by_cases h0 : m = 0
  · subst h0
    rw [if_pos rfl]
    refine Decimal.toBinary64_of_readUnits s hm ?_
    rw [readUnits, Nat.zero_mul, Nat.zero_mul, nearest_zero (tenTo_pos _)]
  · rw [if_neg h0, Decimal.toBinary64_strip]
    exact Decimal.toBinary64_of_readUnits s hm (readUnits_shortestOf hm)

theorem Binary64.shortestDecimal_signed (s t : Bool) (m : Nat) :
    shortestDecimal s m = { shortestDecimal t m with negative := s } := by
  unfold shortestDecimal
  by_cases h0 : m = 0
  · rw [if_pos h0, if_pos h0]
  · rw [if_neg h0, if_neg h0, Decimal.strip_signed s t]

theorem Binary64.negative_shortestDecimal (s : Bool) (m : Nat) :
    (shortestDecimal s m).negative = s := by
  rw [shortestDecimal_signed s false]

/-- Where the shortest decimal has places, its last digit is not a zero. -/
theorem Binary64.coefficient_shortestDecimal (s : Bool) {m : Nat} (hm : Representable m)
    (h : (shortestDecimal s m).exponent < 0) : (shortestDecimal s m).coefficient % 10 ≠ 0 := by
  unfold shortestDecimal at h ⊢
  by_cases h0 : m = 0
  · rw [if_pos h0] at h
    exact absurd h (Int.lt_irrefl 0)
  · rw [if_neg h0, Decimal.coefficient_strip]
    exact Decimal.stripZeros_mod_ten (ne_zero_of_reads h0 (readUnits_shortestOf hm)) _

theorem pairwise_grids (m : Nat) : (grids m).Pairwise (· > ·) := by
  refine List.Pairwise.map _ (fun i j hij => ?_) List.pairwise_lt_range
  show scaleOf m - (j : Int) < scaleOf m - (i : Int)
  omega

theorem mem_grids_iff {m : Nat} {k : Int} :
    k ∈ grids m ↔ scaleOf m - 19 ≤ k ∧ k ≤ scaleOf m := by
  simp only [grids, List.mem_map, List.mem_range]
  constructor
  · rintro ⟨i, hi, rfl⟩
    omega
  · intro h
    exact ⟨(scaleOf m - k).toNat, by omega, by omega⟩

end PocketCalculator
