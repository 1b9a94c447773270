import PocketCalculator.Proofs.Nearest

/-! # The shortest decimal lies on the coarsest grid

Of the points of a grid that read back as a double, one is next to the value of the double, since
reading keeps the order (`isSome_onGrid?_of_reads`). No grid from the scale of the double on has
such a point (`lt_scaleOf_of_reads`), and the finest of the grids that are tried always has one:
seventeen digits suffice (`isSome_onGrid?_finest`). So no decimal that reads back as a double ends
in a higher power of ten than its shortest decimal (`le_exponent_of_reads`). -/

namespace PocketCalculator

/-! ### Powers of two and of ten -/

theorem twoTo_le_tenTo {a b : Nat} (h : 28 * a ≤ 93 * b) : twoTo a ≤ tenTo b := by
  have hbase : Nat.pow 2 93 ≤ Nat.pow 10 28 := by decide
  have hpow : twoTo a ^ 93 ≤ tenTo b ^ 93 := by
    calc twoTo a ^ 93 = (Nat.pow 2 93) ^ a := by
          show (2 ^ a) ^ 93 = (2 ^ 93) ^ a
          rw [← Nat.pow_mul, ← Nat.pow_mul, Nat.mul_comm]
      _ ≤ (Nat.pow 10 28) ^ a := Nat.pow_le_pow_left hbase a
      _ = 10 ^ (28 * a) := (Nat.pow_mul 10 28 a).symm
      _ ≤ 10 ^ (93 * b) := Nat.pow_le_pow_right (by decide) h
      _ = tenTo b ^ 93 := by
          show _ = (10 ^ b) ^ 93
          rw [← Nat.pow_mul, Nat.mul_comm]
  exact (Nat.pow_le_pow_iff_left (by decide)).mp hpow

theorem tenTo_le_twoTo {a b : Nat} (h : 103 * b ≤ 31 * a) : tenTo b ≤ twoTo a := by
  have hbase : Nat.pow 10 31 ≤ Nat.pow 2 103 := by decide
  have hpow : tenTo b ^ 31 ≤ twoTo a ^ 31 := by
    calc tenTo b ^ 31 = (Nat.pow 10 31) ^ b := by
          show (10 ^ b) ^ 31 = (10 ^ 31) ^ b
          rw [← Nat.pow_mul, ← Nat.pow_mul, Nat.mul_comm]
      _ ≤ (Nat.pow 2 103) ^ b := Nat.pow_le_pow_left hbase b
      _ = 2 ^ (103 * b) := (Nat.pow_mul 2 103 b).symm
      _ ≤ 2 ^ (31 * a) := Nat.pow_le_pow_right (by decide) h
      _ = twoTo a ^ 31 := by
          show _ = (2 ^ a) ^ 31
          rw [← Nat.pow_mul, Nat.mul_comm]
  exact (Nat.pow_le_pow_iff_left (by decide)).mp hpow

section Scale
variable {m : Nat} (hm : m < unitsBound)
include hm

theorem log2_lt_of_lt_unitsBound : m.log2 < 2098 := by
  rcases Nat.eq_zero_or_pos m with rfl | h0
  · decide
  · exact (log2_lt_iff (by omega)).mpr hm

theorem twoTo_le_scaleOf :
    twoTo (m.log2 + 1) * tenTo (-scaleOf m).toNat ≤ unitsPerOne * tenTo (scaleOf m).toNat := by
  have hlog := log2_lt_of_lt_unitsBound hm
  have hscale : scaleOf m = ((m.log2 : Int) - 1073) * 30103 / 100000 + 2 := rfl
  rcases Int.lt_or_le (scaleOf m) 0 with hs | hs
  · rw [show (scaleOf m).toNat = 0 by omega, tenTo_zero, Nat.mul_one]
    calc twoTo (m.log2 + 1) * tenTo (-scaleOf m).toNat
        ≤ twoTo (m.log2 + 1) * twoTo (1073 - m.log2) :=
          Nat.mul_le_mul_left _ (tenTo_le_twoTo (by omega))
      _ = unitsPerOne := by
          rw [← twoTo_add]
          exact congrArg twoTo (by omega)
  · rw [show (-scaleOf m).toNat = 0 by omega, tenTo_zero, Nat.mul_one]
    rcases Nat.lt_or_ge m.log2 1074 with hsmall | hlarge
    · calc twoTo (m.log2 + 1) ≤ unitsPerOne := twoTo_le (by omega)
        _ ≤ unitsPerOne * tenTo (scaleOf m).toNat := Nat.le_mul_of_pos_right _ (tenTo_pos _)
    · calc twoTo (m.log2 + 1) = unitsPerOne * twoTo (m.log2 - 1073) := by
            rw [unitsPerOne, ← twoTo_add]
            exact congrArg twoTo (by omega)
        _ ≤ unitsPerOne * tenTo (scaleOf m).toNat :=
            Nat.mul_le_mul_left _ (twoTo_le_tenTo (by omega))

theorem finest_lt_lastPlace :
    2 * (unitsPerOne * tenTo (scaleOf m - 19).toNat) <
      lastPlace m * tenTo (-(scaleOf m - 19)).toNat := by
  have hlog := log2_lt_of_lt_unitsBound hm
  have hscale : scaleOf m = ((m.log2 : Int) - 1073) * 30103 / 100000 + 2 := rfl
  have htwo : twoTo 1 = 2 := rfl
  have hless : ∀ n, twoTo n < twoTo (n + 1) := by
    intro n
    have hpos := twoTo_pos n
    rw [twoTo_add, htwo]
    omega
  rw [← Nat.mul_assoc, unitsPerOne, ← htwo, ← twoTo_add, lastPlace]
  rcases Int.lt_or_le (scaleOf m - 19) 0 with hs | hs
  · rw [show (scaleOf m - 19).toNat = 0 by omega, tenTo_zero, Nat.mul_one]
    calc twoTo (1 + 1074) < twoTo 1076 := hless 1075
      _ ≤ twoTo (m.log2 - 52 + (1076 - (m.log2 - 52))) := twoTo_le (by omega)
      _ = twoTo (m.log2 - 52) * twoTo (1076 - (m.log2 - 52)) := twoTo_add _ _
      _ ≤ twoTo (m.log2 - 52) * tenTo (-(scaleOf m - 19)).toNat :=
          Nat.mul_le_mul_left _ (twoTo_le_tenTo (by omega))
  · rw [show (-(scaleOf m - 19)).toNat = 0 by omega, tenTo_zero, Nat.mul_one]
    calc twoTo (1 + 1074) * tenTo (scaleOf m - 19).toNat
        ≤ twoTo (1 + 1074) * twoTo (m.log2 - 1128) :=
          Nat.mul_le_mul_left _ (tenTo_le_twoTo (by omega))
      _ = twoTo (1 + 1074 + (m.log2 - 1128)) := (twoTo_add _ _).symm
      _ < twoTo (1 + 1074 + (m.log2 - 1128) + 1) := hless _
      _ ≤ twoTo (m.log2 - 52) := twoTo_le (by omega)

end Scale

/-! ### Points that read back -/

theorem halfEven_mul_close {d : Nat} (hd : 0 < d) (a : Nat) :
    2 * a ≤ 2 * (halfEven a d * d) + d ∧ 2 * (halfEven a d * d) ≤ 2 * a + d := by
  have hmod := Nat.div_add_mod a d
  have hlt := Nat.mod_lt a hd
  rw [Nat.mul_comm d] at hmod
  unfold halfEven
  generalize a / d = q at *
  by_cases hbelow : 2 * (a % d) < d
  · rw [if_pos hbelow]
    omega
  · rw [if_neg hbelow]
    by_cases habove : d < 2 * (a % d)
    · rw [if_pos habove, Nat.succ_mul q]
      omega
    · rw [if_neg habove]
      rcases Nat.mod_two_eq_zero_or_one q with hq | hq
      · rw [hq, Nat.add_zero]
        omega
      · rw [hq, Nat.succ_mul q]
        omega

theorem readUnits_mono {c c' : Nat} (h : c ≤ c') (k : Int) : readUnits c k ≤ readUnits c' k :=
  nearest_mono_left (tenTo_pos _)
    (Nat.mul_le_mul_right _ (Nat.mul_le_mul_right _ h))

section Reads
variable {m c : Nat} {k : Int} (hm : Representable m)
include hm

/-- The value of `m` units in steps of the grid `k`, as the quotient of two natural numbers. -/
theorem readUnits_le_of_mul_le
    (h : c * (unitsPerOne * tenTo k.toNat) ≤ m * tenTo (-k).toNat) : readUnits c k ≤ m := by
  rw [Nat.mul_comm unitsPerOne, ← Nat.mul_assoc] at h
  have hmono := nearest_mono_left (tenTo_pos (-k).toNat) h
  rwa [nearest_of_representable (tenTo_pos _) hm] at hmono

theorem le_readUnits_of_le_mul
    (h : m * tenTo (-k).toNat ≤ c * (unitsPerOne * tenTo k.toNat)) : m ≤ readUnits c k := by
  rw [Nat.mul_comm unitsPerOne, ← Nat.mul_assoc] at h
  have hmono := nearest_mono_left (tenTo_pos (-k).toNat) h
  rwa [nearest_of_representable (tenTo_pos _) hm] at hmono

omit hm in
theorem isSome_onGrid?_of_mem (hc : c ∈ neighbours m k) (h : readUnits c k = m) :
    (onGrid? m k).isSome = true := by
  unfold onGrid?
  exact List.find?_isSome.mpr ⟨c, hc, by simpa using h⟩

theorem isSome_onGrid?_of_reads (h : readUnits c k = m) : (onGrid? m k).isSome = true := by
  have hd : 0 < unitsPerOne * tenTo k.toNat := Nat.mul_pos unitsPerOne_pos (tenTo_pos _)
  have hfloor := readUnits_le_of_mul_le (k := k) hm (Nat.div_mul_le_self _ _)
  have hceil := le_readUnits_of_le_mul (c := _ + 1) (k := k) hm
    (Nat.le_of_lt ((Nat.div_lt_iff_lt_mul hd).mp (Nat.lt_succ_self _)))
  have hmem : ∀ q, q = m * tenTo (-k).toNat / (unitsPerOne * tenTo k.toNat) ∨
      q = m * tenTo (-k).toNat / (unitsPerOne * tenTo k.toNat) + 1 → q ∈ neighbours m k := by
    have hlow := le_halfEven (m * tenTo (-k).toNat) (unitsPerOne * tenTo k.toNat)
    have hhigh := halfEven_le_succ (m * tenTo (-k).toNat) (unitsPerOne * tenTo k.toNat)
    intro q hq
    unfold neighbours
    simp only [List.mem_cons, List.not_mem_nil, or_false]
    generalize halfEven _ _ = near at *
    generalize m * tenTo (-k).toNat / _ = floor at *
    split <;> omega
  generalize m * tenTo (-k).toNat / _ = floor at *
  rcases Nat.lt_or_ge floor c with hc | hc
  · have hmono := readUnits_mono (show floor + 1 ≤ c from hc) k
    exact isSome_onGrid?_of_mem (hmem _ (Or.inr rfl)) (by omega)
  · have hmono := readUnits_mono hc k
    exact isSome_onGrid?_of_mem (hmem _ (Or.inl rfl)) (by omega)

/-- **Seventeen digits suffice:** the finest grid has a point that reads back. -/
theorem isSome_onGrid?_finest : (onGrid? m (scaleOf m - 19)).isSome = true := by
  have hfine := finest_lt_lastPlace hm.2
  have hd : 0 < unitsPerOne * tenTo (scaleOf m - 19).toNat :=
    Nat.mul_pos unitsPerOne_pos (tenTo_pos _)
  obtain ⟨hlow, hhigh⟩ := halfEven_mul_close hd (m * tenTo (-(scaleOf m - 19)).toNat)
  refine isSome_onGrid?_of_mem (c := halfEven _ _) List.mem_cons_self ?_
  unfold readUnits
  rw [Nat.mul_assoc, Nat.mul_comm (tenTo _) unitsPerOne]
  exact nearest_of_close (tenTo_pos _) hm.1 (by omega) (by omega)

theorem lt_scaleOf_of_reads (h0 : m ≠ 0) (h : readUnits c k = m) : k < scaleOf m := by
  refine Int.lt_of_not_ge fun hk => ?_
  have hc := ne_zero_of_reads h0 h
  -- the next power of two above the double is not above the point, and is not rounded
  have hpow : lastPlace (twoTo (m.log2 + 1)) ∣ twoTo (m.log2 + 1) := by
    rw [lastPlace, log2_twoTo]
    exact twoTo_dvd (by omega)
  have hscale := twoTo_le_scaleOf hm.2
  have hgrid : tenTo (scaleOf m).toNat * tenTo (-k).toNat ≤
      tenTo k.toNat * tenTo (-scaleOf m).toNat := by
    rw [← tenTo_add, ← tenTo_add]
    exact Nat.pow_le_pow_right (by decide) (by omega)
  have hbelow : twoTo (m.log2 + 1) * tenTo (-k).toNat ≤ c * tenTo k.toNat * unitsPerOne := by
    refine Nat.le_of_mul_le_mul_right ?_ (tenTo_pos (-scaleOf m).toNat)
    calc twoTo (m.log2 + 1) * tenTo (-k).toNat * tenTo (-scaleOf m).toNat
        = twoTo (m.log2 + 1) * tenTo (-scaleOf m).toNat * tenTo (-k).toNat :=
          Nat.mul_right_comm _ _ _
      _ ≤ unitsPerOne * tenTo (scaleOf m).toNat * tenTo (-k).toNat :=
          Nat.mul_le_mul_right _ hscale
      _ = unitsPerOne * (tenTo (scaleOf m).toNat * tenTo (-k).toNat) := Nat.mul_assoc _ _ _
      _ ≤ unitsPerOne * (tenTo k.toNat * tenTo (-scaleOf m).toNat) := Nat.mul_le_mul_left _ hgrid
      _ = 1 * tenTo k.toNat * unitsPerOne * tenTo (-scaleOf m).toNat := by
          rw [Nat.one_mul, ← Nat.mul_assoc, Nat.mul_comm unitsPerOne]
      _ ≤ c * tenTo k.toNat * unitsPerOne * tenTo (-scaleOf m).toNat :=
          Nat.mul_le_mul_right _ (Nat.mul_le_mul_right _ (Nat.mul_le_mul_right _ (by omega)))
  have hquot : twoTo (m.log2 + 1) * tenTo (-k).toNat / tenTo (-k).toNat = twoTo (m.log2 + 1) :=
    Nat.mul_div_cancel _ (tenTo_pos _)
  have hkept : twoTo (m.log2 + 1) ≤ nearest (twoTo (m.log2 + 1) * tenTo (-k).toNat)
      (tenTo (-k).toNat) := le_nearest (by rw [hquot]; exact hpow) (Nat.le_of_eq hquot.symm)
  have hread := nearest_mono_left (tenTo_pos (-k).toNat) hbelow
  rw [← readUnits, h] at hread
  have hlt := lt_twoTo_log2 m
  omega

/-- **No decimal that reads back ends in a higher power of ten** than the shortest decimal. -/
theorem le_exponent_of_reads (s : Bool) (h0 : m ≠ 0) (h : readUnits c k = m) :
    k ≤ (Binary64.shortestDecimal s m).exponent := by
  have hc := ne_zero_of_reads h0 (readUnits_shortestOf hm)
  have hstrip := Decimal.le_exponent_stripZeros hc (shortestOf m).2 (j := 0) (Nat.one_dvd _)
  have hfinest : scaleOf m - 19 ∈ grids m := mem_grids_iff.mpr (by omega)
  rw [Binary64.shortestDecimal, if_neg h0, Decimal.exponent_strip]
  rcases shortestOf_cases m with ⟨coarser, k', finer, hl, -, hk', hnone⟩ | ⟨hnone, -⟩
  · have hhit : ∀ j ∈ grids m, (onGrid? m j).isSome = true → j ≤ k' := by
      intro j hj hsome
      have hpair := pairwise_grids m
      rw [hl] at hj hpair
      rcases List.mem_append.mp hj with hj | hj
      · rw [hnone j hj] at hsome
        cases hsome
      · rcases List.mem_cons.mp hj with rfl | hj
        · exact Int.le_refl _
        · have := (List.pairwise_cons.mp (List.pairwise_append.mp hpair).2.1).1 j hj
          omega
    have hlast := hhit _ hfinest (isSome_onGrid?_finest hm)
    have hscale := lt_scaleOf_of_reads hm h0 h
    -- a grid finer than all that are tried is finer than the first hit, too
    rcases Int.lt_or_le k (scaleOf m - 19) with hfine | hcoarse
    · omega
    · have := hhit k (mem_grids_iff.mpr (by omega)) (isSome_onGrid?_of_reads hm h)
      omega
  · have hsome := isSome_onGrid?_finest hm
    rw [hnone _ hfinest] at hsome
    cases hsome

end Reads

/-! ### Whole numbers -/

/-- **The shortest decimal of a whole number has no places:** the number itself reads back. -/
theorem exponent_shortestDecimal_nonneg (s : Bool) {m : Nat} (hm : Representable m)
    (hw : unitsPerOne ∣ m) : 0 ≤ (Binary64.shortestDecimal s m).exponent := by
  by_cases h0 : m = 0
  · have hzero : (Binary64.shortestDecimal s m).exponent = 0 := by
      rw [h0, Binary64.shortestDecimal_zero]
    exact Int.le_of_eq hzero.symm
  · have hself := nearest_of_representable (d := 1) (by decide) hm
    rw [Nat.mul_one] at hself
    refine le_exponent_of_reads (c := m / unitsPerOne) hm s h0 ?_
    show nearest (m / unitsPerOne * tenTo 0 * unitsPerOne) (tenTo 0) = m
    rw [tenTo_zero, Nat.mul_one, Nat.div_mul_cancel hw, hself]

end PocketCalculator
