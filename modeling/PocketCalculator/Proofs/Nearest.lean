import PocketCalculator.Proofs.Shortest

/-! # Rounding keeps the order

A larger quotient is not rounded to a smaller number of units (`nearest_mono`). Two facts carry
this. A multiple of the last place that is not above a quotient is not above its rounding
(`le_nearest`), and likewise from the other side (`nearest_le_of_le`); so a power of two lies
between the roundings of two quotients of different bit length. A quotient within a quarter of the
last place of a double is rounded to the double (`nearest_of_close`), on whichever side of it: just
below a power of two the last place is only half as large. -/

namespace PocketCalculator

/-! ### Nearest natural numbers -/

theorem halfEven_mono_left {a b : Nat} (d : Nat) (h : a ≤ b) : halfEven a d ≤ halfEven b d := by
  rcases Nat.eq_or_lt_of_le (Nat.div_le_div_right (c := d) h) with hq | hq
  · -- with equal quotients the remainders are in order
    have ha := Nat.div_add_mod a d
    have hb := Nat.div_add_mod b d
    rw [← hq] at hb
    unfold halfEven
    rw [← hq]
    generalize d * (a / d) = n at *
    split <;> split <;> (try split) <;> (try split) <;> omega
  · have ha := halfEven_le_succ a d
    have hb := le_halfEven b d
    omega

theorem halfEven_of_close {a d k : Nat} (hl : 2 * (k * d) < 2 * a + d)
    (hu : 2 * a < 2 * (k * d) + d) : halfEven a d = k := by
  have hd : 0 < d := by omega
  have hmod := Nat.div_add_mod a d
  have hlt := Nat.mod_lt a hd
  rw [Nat.mul_comm d] at hmod
  generalize hq : a / d = q at hmod
  rcases Nat.lt_trichotomy q k with hqk | rfl | hqk
  · have h1 : (q + 1) * d ≤ k * d := Nat.mul_le_mul_right d hqk
    rw [Nat.succ_mul] at h1
    rcases Nat.lt_or_ge (q + 1) k with hlow | hhigh
    · have h2 : (q + 1 + 1) * d ≤ k * d := Nat.mul_le_mul_right d hlow
      rw [Nat.succ_mul, Nat.succ_mul] at h2
      omega
    · obtain rfl : k = q + 1 := by omega
      rw [Nat.succ_mul] at hl hu
      unfold halfEven
      rw [hq, if_neg (by omega), if_pos (by omega)]
  · unfold halfEven
    rw [hq, if_pos (by omega)]
  · have h1 : (k + 1) * d ≤ q * d := Nat.mul_le_mul_right d hqk
    rw [Nat.succ_mul] at h1
    omega

/-! ### Multiples of the last place -/

theorem le_nearest {a d n : Nat} (hn : lastPlace (a / d) ∣ n) (h : n ≤ a / d) :
    n ≤ nearest a d := by
  obtain ⟨k, rfl⟩ := hn
  rw [Nat.mul_comm] at h ⊢
  refine Nat.mul_le_mul_right _ (Nat.le_trans ?_ (le_halfEven _ _))
  rw [← Nat.div_div_eq_div_mul]
  exact (Nat.le_div_iff_mul_le (lastPlace_pos _)).mpr h

theorem nearest_le_of_le {a d n : Nat} (hd : 0 < d) (hn : lastPlace (a / d) ∣ n)
    (h : a ≤ n * d) : nearest a d ≤ n := by
  obtain ⟨k, hk⟩ := hn
  have hkd : n * d = k * (d * lastPlace (a / d)) := by
    rw [hk, Nat.mul_comm _ k, Nat.mul_assoc, Nat.mul_comm d]
  rw [hkd] at h
  have hmono := halfEven_mono_left (d * lastPlace (a / d)) h
  rw [halfEven_mul_self (Nat.mul_pos hd (lastPlace_pos _))] at hmono
  rw [hk, Nat.mul_comm _ k]
  exact Nat.mul_le_mul_right _ hmono

theorem log2_le_log2 {m n : Nat} (h : m ≤ n) : m.log2 ≤ n.log2 := by
  rcases Nat.eq_zero_or_pos m with rfl | hm
  · exact Nat.zero_le _
  · have hself := Nat.log2_self_le (show m ≠ 0 by omega)
    exact (Nat.le_log2 (by omega)).mpr (Nat.le_trans hself h)

theorem nearest_mono_left {a b d : Nat} (hd : 0 < d) (h : a ≤ b) : nearest a d ≤ nearest b d := by
  have hq : a / d ≤ b / d := Nat.div_le_div_right h
  by_cases hlog : (a / d).log2 - 52 = (b / d).log2 - 52
  · have hplace : lastPlace (a / d) = lastPlace (b / d) := by rw [lastPlace, lastPlace, hlog]
    unfold nearest
    rw [hplace]
    exact Nat.mul_le_mul_right _ (halfEven_mono_left _ h)
  · -- the power of two at which the bits of the larger quotient begin lies in between
    have hle := log2_le_log2 hq
    have hbits : twoTo (b / d).log2 ≤ b / d := by
      refine Nat.log2_self_le fun h0 => hlog ?_
      have ha0 : a / d = 0 := Nat.le_zero.mp (Nat.le_trans hq (Nat.le_of_eq h0))
      rw [h0, ha0]
    have hbelow : a ≤ twoTo (b / d).log2 * d := by
      have h1 : a / d < twoTo (b / d).log2 :=
        Nat.lt_of_lt_of_le (lt_twoTo_log2 _) (twoTo_le (by omega))
      exact Nat.le_of_lt ((Nat.div_lt_iff_lt_mul hd).mp h1)
    calc nearest a d ≤ twoTo (b / d).log2 :=
          nearest_le_of_le hd (twoTo_dvd (by omega)) hbelow
      _ ≤ nearest b d := le_nearest (twoTo_dvd (by omega)) hbits

/-- **Rounding keeps the order of quotients.** -/
theorem nearest_mono {a d a' d' : Nat} (hd : 0 < d) (hd' : 0 < d') (h : a * d' ≤ a' * d) :
    nearest a d ≤ nearest a' d' := by
  rw [← nearest_mul_right hd' a d, ← nearest_mul_right hd a' d', Nat.mul_comm d']
  exact nearest_mono_left (Nat.mul_pos hd hd') h

/-! ### Near a double -/

theorem add_lastPlace_le {m : Nat} (hm : lastPlace m ∣ m) (h : 52 ≤ m.log2) :
    m + lastPlace m ≤ twoTo (m.log2 + 1) := by
  obtain ⟨k, hk⟩ := hm
  have hpow : twoTo (m.log2 + 1) = lastPlace m * twoTo 53 := by
    unfold lastPlace
    rw [← twoTo_add]
    congr 1
    omega
  have hlt : lastPlace m * k < lastPlace m * twoTo 53 := by
    rw [← hk, ← hpow]
    exact lt_twoTo_log2 m
  have hk53 : k + 1 ≤ twoTo 53 := Nat.lt_of_mul_lt_mul_left hlt
  calc m + lastPlace m = lastPlace m * (k + 1) := by rw [Nat.mul_succ, ← hk]
    _ ≤ lastPlace m * twoTo 53 := Nat.mul_le_mul_left _ hk53
    _ = twoTo (m.log2 + 1) := hpow.symm

theorem lastPlace_of_close {m q : Nat} (hm : lastPlace m ∣ m)
    (hl : 4 * m < 4 * q + 4 + lastPlace m) (hu : 4 * q < 4 * m + lastPlace m) :
    lastPlace q ∣ m ∧ lastPlace m ≤ 2 * lastPlace q := by
  rcases Nat.lt_or_ge q m with hq | hq
  · have hlog := log2_le_log2 (Nat.le_of_lt hq)
    refine ⟨Nat.dvd_trans (twoTo_dvd (by omega)) hm, ?_⟩
    have htwice : 2 * lastPlace q = twoTo (q.log2 - 52 + 1) := by
      rw [twoTo_add, Nat.mul_comm]
      rfl
    rw [htwice]
    refine twoTo_le ?_
    rcases Nat.lt_or_ge m.log2 53 with he | he
    · omega
    · -- the double is a power of two at least, and the quotient more than half of it
      have hself : twoTo m.log2 ≤ m := Nat.log2_self_le (by omega)
      have hsplit : twoTo m.log2 = 2 * twoTo (m.log2 - 1) := by
        rw [show m.log2 = m.log2 - 1 + 1 by omega, twoTo_add, Nat.mul_comm]
        rfl
      have hplace : lastPlace m ≤ twoTo (m.log2 - 1) := twoTo_le (by omega)
      have hfour : twoTo 2 ≤ twoTo (m.log2 - 1) := twoTo_le (by omega)
      have hfour' : twoTo 2 = 4 := rfl
      have hhalf : twoTo (m.log2 - 1) ≤ q := by omega
      have hbits := (Nat.le_log2 (by omega)).mpr hhalf
      omega
  · have hlog : q.log2 = m.log2 := by
      refine Nat.le_antisymm ?_ (log2_le_log2 hq)
      rcases Nat.lt_or_ge m.log2 52 with he | he
      · have hone : lastPlace m = 1 := by rw [lastPlace, Nat.sub_eq_zero_of_le (by omega)]; rfl
        exact log2_le_log2 (by omega)
      · have hsum := add_lastPlace_le hm he
        rcases Nat.eq_zero_or_pos q with rfl | hq0
        · exact Nat.zero_le _
        · have := (log2_lt_iff (n := m.log2 + 1) (by omega)).mpr (show q < _ by omega)
          omega
    have hplace : lastPlace q = lastPlace m := by rw [lastPlace, hlog]; rfl
    rw [hplace]
    exact ⟨hm, by omega⟩

/-- **A quotient within a quarter of the last place of a double** is rounded to the double. -/
theorem nearest_of_close {a d m : Nat} (hd : 0 < d) (hm : lastPlace m ∣ m)
    (hl : 4 * (m * d) < 4 * a + lastPlace m * d) (hu : 4 * a < 4 * (m * d) + lastPlace m * d) :
    nearest a d = m := by
  have hfloor : a / d * d ≤ a := Nat.div_mul_le_self a d
  have hceil : a < (a / d + 1) * d := (Nat.div_lt_iff_lt_mul hd).mp (Nat.lt_succ_self _)
  have hbelow : 4 * m < 4 * (a / d) + 4 + lastPlace m := by
    refine Nat.lt_of_mul_lt_mul_right (a := d) ?_
    rw [Nat.succ_mul] at hceil
    rw [Nat.add_mul, Nat.add_mul, Nat.mul_assoc, Nat.mul_assoc]
    omega
  have habove : 4 * (a / d) < 4 * m + lastPlace m := by
    refine Nat.lt_of_mul_lt_mul_right (a := d) ?_
    rw [Nat.add_mul, Nat.mul_assoc, Nat.mul_assoc]
    omega
  obtain ⟨⟨k, hk⟩, hhalf⟩ := lastPlace_of_close hm hbelow habove
  have hkd : k * (d * lastPlace (a / d)) = m * d := by
    rw [hk, Nat.mul_comm _ k, Nat.mul_assoc, Nat.mul_comm d]
  have hwide : lastPlace m * d ≤ 2 * (d * lastPlace (a / d)) := by
    calc lastPlace m * d ≤ 2 * lastPlace (a / d) * d := Nat.mul_le_mul_right d hhalf
      _ = 2 * (d * lastPlace (a / d)) := by rw [Nat.mul_assoc, Nat.mul_comm d]
  have hround : halfEven a (d * lastPlace (a / d)) = k := by
    refine halfEven_of_close ?_ ?_ <;> rw [hkd] <;> omega
  rw [nearest, hround, Nat.mul_comm, ← hk]

end PocketCalculator
