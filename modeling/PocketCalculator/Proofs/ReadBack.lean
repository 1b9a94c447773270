import PocketCalculator.Proofs.Numeral
import PocketCalculator.Proofs.Shortest
import Mathlib.Tactic.SplitIfs

/-! # The shown text of a number is read back

Digits with a point are a whole part and a fraction (`Decimal.exists_pointAt`). The display shows a
finite double as a numeral, behind a minus sign if it is negative. The numeral writes the shortest
decimal of the double, so that its value is the double without the sign (`Binary64.exists_shown`).
Only the zeros are shown as `0` (`Binary64.shown_eq_zero_iff`). -/

namespace PocketCalculator

/-! ### Digits with zeros in front -/

section Padding
variable (k c : Nat)

theorem isDigit_padded :
    ∀ d ∈ List.replicate k '0' ++ Nat.toDigits 10 c, d.isDigit = true := by
  intro d hd
  rcases List.mem_append.mp hd with hd | hd
  · rw [List.eq_of_mem_replicate hd]; decide
  · exact Nat.isDigit_of_mem_toDigits (by decide) (by decide) hd

theorem ofDigitChars_padded :
    Nat.ofDigitChars 10 (List.replicate k '0' ++ Nat.toDigits 10 c) 0 = c := by
  rw [Nat.ofDigitChars_append, Nat.ofDigitChars_replicate_zero, Nat.mul_zero,
    Nat.ofDigitChars_ten_toDigits]

theorem lt_length_padded (n : Nat) :
    n < (List.replicate (n + 1 - (Nat.toDigits 10 c).length) '0' ++ Nat.toDigits 10 c).length := by
  rw [List.length_append, List.length_replicate]
  omega

end Padding

/-! ### Digits before the point -/

/-- Digits that may stand before a point: a zero alone, or digits that begin with another. -/
structure IsWhole (ds : List Char) : Prop where
  ne_nil : ds ≠ []
  digits : ∀ c ∈ ds, c.isDigit = true
  zero_alone : ds.head? = some '0' → ds = ['0']

theorem head?_append_of_ne_nil {l : List Char} (h : l ≠ []) (l' : List Char) :
    (l ++ l').head? = l.head? := by
  cases l with
  | nil => exact absurd rfl h
  | cons => rfl

theorem head?_toDigits {n : Nat} (hn : n ≠ 0) : (Nat.toDigits 10 n).head? ≠ some '0' := by
  induction n using Nat.strongRecOn with
  | ind n ih =>
    rcases Nat.lt_or_ge n 10 with h | h
    · rw [Nat.toDigits_of_lt_base h, List.head?_cons]
      intro heq
      have hall : ∀ n < 10, Nat.digitChar n = '0' → n = 0 := by decide
      exact hn (hall n h (Option.some.inj heq))
    · rw [Nat.toDigits_of_base_le (by decide) h, head?_append_of_ne_nil Nat.toDigits_ne_nil]
      exact ih (n / 10) (by omega) (by omega)

theorem isDigit_of_mem_zero : ∀ c ∈ ['0'], c.isDigit = true := forall_of_all (by decide)

theorem isWhole_zero : IsWhole ['0'] := ⟨by simp, isDigit_of_mem_zero, fun _ => rfl⟩

theorem isWhole_toDigits (n : Nat) : IsWhole (Nat.toDigits 10 n) where
  ne_nil := Nat.toDigits_ne_nil
  digits := fun _ hc => Nat.isDigit_of_mem_toDigits (by decide) (by decide) hc
  zero_alone := by
    intro h
    by_cases hn : n = 0
    · rw [hn]; rfl
    · exact absurd h (head?_toDigits hn)

theorem IsWhole.take {ds : List Char} (h : IsWhole ds) {n : Nat} (hn : n ≠ 0) :
    IsWhole (ds.take n) where
  ne_nil := by
    intro hnil
    rcases List.take_eq_nil_iff.mp hnil with h0 | h0
    · exact hn h0
    · exact h.ne_nil h0
  digits := fun c hc => h.digits c (List.mem_of_mem_take hc)
  zero_alone := by
    intro hz
    rw [List.head?_take, if_neg hn] at hz
    rw [h.zero_alone hz]
    refine List.take_of_length_le ?_
    rw [List.length_singleton]
    omega

/-! ### Digits with a point -/

/-- A fraction behind its point, if there is one. -/
def pointed (fraction : List Char) : List Char :=
  if fraction = [] then [] else '.' :: fraction

namespace Decimal

theorem isWhole_take_padded (n c : Nat) {ds : List Char}
    (hds : ds = List.replicate (n + 1 - (Nat.toDigits 10 c).length) '0' ++ Nat.toDigits 10 c) :
    IsWhole (ds.take (ds.length - n)) := by
  subst hds
  rcases Nat.lt_or_ge n (Nat.toDigits 10 c).length with h | h
  · have hpad : n + 1 - (Nat.toDigits 10 c).length = 0 := by omega
    rw [hpad, List.replicate_zero, List.nil_append]
    exact (isWhole_toDigits c).take (by omega)
  · have hpad : n + 1 - (Nat.toDigits 10 c).length = n - (Nat.toDigits 10 c).length + 1 := by
      omega
    have hone : n - (Nat.toDigits 10 c).length + 1 + (Nat.toDigits 10 c).length - n = 1 := by
      omega
    rw [hpad, List.length_append, List.length_replicate, hone]
    exact isWhole_zero

/-- Digits with a point are those before it and, for each place, one behind it. -/
theorem exists_pointAt (n c : Nat) : ∃ whole fraction,
    pointAt n (Nat.toDigits 10 c) = whole ++ pointed fraction ∧ IsWhole whole ∧
      (∀ d ∈ fraction, d.isDigit = true) ∧ fraction.length = n ∧
      Nat.ofDigitChars 10 (whole ++ fraction) 0 = c := by
  have hdigit := isDigit_padded (n + 1 - (Nat.toDigits 10 c).length) c
  have hvalue := ofDigitChars_padded (n + 1 - (Nat.toDigits 10 c).length) c
  have hlen := lt_length_padded c n
  have hwhole := isWhole_take_padded n c rfl
  unfold pointAt
  simp only
  generalize List.replicate (n + 1 - (Nat.toDigits 10 c).length) '0' ++ Nat.toDigits 10 c = ds
    at hdigit hvalue hlen hwhole
  have hplaces : (ds.drop (ds.length - n)).length = n := by
    rw [List.length_drop]
    omega
  refine ⟨ds.take (ds.length - n), ds.drop (ds.length - n), ?_, hwhole,
    fun d hd => hdigit d (List.mem_of_mem_drop hd), hplaces, ?_⟩
  · split_ifs with hn
    · simp [hn, pointed]
    · rw [pointed, if_neg (List.ne_nil_of_length_pos (by omega))]
  · rw [List.take_append_drop, hvalue]

end Decimal

theorem Numeral.exists_pointAt (n c : Nat) :
    ∃ a : Numeral, a.text = Decimal.pointAt n (Nat.toDigits 10 c) ∧
      a.decimal = ⟨false, c, -(n : Int)⟩ := by
  obtain ⟨whole, fraction, htext, hwhole, hfraction, hlen, hvalue⟩ := Decimal.exists_pointAt n c
  rw [htext, pointed]
  by_cases hnil : fraction = []
  · refine ⟨⟨whole, none, hwhole.digits, isDigit_of_mem_nil, .inl hwhole.ne_nil⟩, ?_, ?_⟩
    · rw [if_pos hnil, List.append_nil]
      rfl
    · rw [← hvalue, ← hlen, hnil]
      rfl
  · refine ⟨⟨whole, some fraction, hwhole.digits, hfraction, .inl hwhole.ne_nil⟩, ?_, ?_⟩
    · rw [if_neg hnil]
      rfl
    · rw [← hvalue, ← hlen]
      rfl

/-! ### Decimals in plain digits -/

/-- With the zeros behind the coefficient as part of it, the exponent only counts the places. -/
theorem Decimal.tenTo_places (k : Int) : tenTo (-((-k).toNat : Int)).toNat = 1 ∧
    tenTo (-(-((-k).toNat : Int))).toNat = tenTo (-k).toNat := by
  have h1 : (-((-k).toNat : Int)).toNat = 0 := by omega
  have h2 : (-(-((-k).toNat : Int))).toNat = (-k).toNat := by omega
  rw [h1, h2]
  exact ⟨tenTo_zero, rfl⟩

theorem Decimal.toBinary64_mul_tenTo (s : Bool) (c : Nat) (k : Int) :
    toBinary64 ⟨s, c * tenTo k.toNat, -((-k).toNat : Int)⟩ = toBinary64 ⟨s, c, k⟩ := by
  obtain ⟨hnumerator, hdenominator⟩ := tenTo_places k
  unfold toBinary64
  simp only [hnumerator, hdenominator, Nat.mul_one]

/-- **Plain digits are a numeral** with the value of the decimal. -/
theorem Numeral.exists_plain (d : Decimal) :
    ∃ a : Numeral, a.text = d.plain ∧
      a.value = Decimal.toBinary64 ⟨false, d.coefficient, d.exponent⟩ := by
  obtain ⟨a, ht, hd⟩ := exists_pointAt d.places (d.coefficient * tenTo d.exponent.toNat)
  refine ⟨a, ht, ?_⟩
  rw [value, hd]
  exact Decimal.toBinary64_mul_tenTo false d.coefficient d.exponent

theorem Numeral.value_zero : zero.value = .zero false := by decide +kernel

namespace Binary64

/-- **The shown text** of a finite double is a numeral behind the sign, and the value of the
numeral is the double without the sign. -/
theorem exists_shown (s : Bool) {m : Nat} (hm : Representable m) :
    ∃ a : Numeral, (finite s m hm).shown.toList = Decimal.signed (s && m != 0) a.text ∧
      a.value = finite false m hm := by
  obtain ⟨a, ht, hv⟩ := Numeral.exists_plain (shortestDecimal s m)
  refine ⟨a, ?_, ?_⟩
  · rw [ht, shown, String.toList_ofList]
  · rw [hv, ← toBinary64_shortestDecimal false hm, shortestDecimal_signed false s]

theorem exists_mem_shown {P : Char → Prop} [DecidablePred P] (s : Bool) {m : Nat}
    (hm : Representable m) (h : (".0123456789".toList.all fun c => P c) = true) :
    ∃ c ∈ (finite s m hm).shown.toList, P c := by
  obtain ⟨a, htext, -⟩ := exists_shown s hm
  obtain ⟨c, hc, hP⟩ := a.exists_mem_text h
  refine ⟨c, ?_, hP⟩
  rw [htext, Decimal.signed]
  split
  · exact List.mem_cons_of_mem _ hc
  · exact hc

theorem shown_eq_zero_iff (s : Bool) {m : Nat} (hm : Representable m) :
    (finite s m hm).shown = "0" ↔ m = 0 := by
  refine ⟨fun h => ?_, ?_⟩
  · obtain ⟨a, htext, hv⟩ := exists_shown s hm
    have hone : "0".toList = Numeral.zero.text := rfl
    rw [h, hone] at htext
    have ha : a.text = Numeral.zero.text := by
      rcases hs : (s && m != 0) with _ | _
      · rw [hs] at htext; exact htext.symm
      · rw [hs] at htext; exact absurd (List.cons.inj htext).1 (by decide)
    have hvalue := Numeral.value_congr ha
    rw [hv, Numeral.value_zero] at hvalue
    cases hvalue
    rfl
  · rintro rfl
    rw [shown, shortestDecimal_zero]
    cases s <;> decide

end Binary64

end PocketCalculator
