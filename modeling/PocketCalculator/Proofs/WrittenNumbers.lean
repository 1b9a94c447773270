import PocketCalculator.Json.Printer
import PocketCalculator.Json.Token
import PocketCalculator.Proofs.CoarsestGrid
import PocketCalculator.Proofs.ReadBack
import Mathlib.Tactic.SplitIfs

/-! # Numbers in a file are read back

A number is written as digits, perhaps a fraction behind a point, and perhaps an exponent. The
digits before the point are `IsWhole`, and what stands behind the number does not prolong it
(`EndsNumber`). Of a whole number the scanner takes just the digits (`scanScalar_integerText`). A
double is written in one of three forms, whole with a zero behind the point, with a fraction, or
with an exponent; each of them is a form of its shortest decimal, so that the double is read
(`scanScalar_numberText`). -/

namespace PocketCalculator

/-! ### Numbers at the front of a text -/

/-- What stands behind a number does not prolong it. -/
def EndsNumber (rest : List Char) : Prop :=
  ∀ c ∈ rest.head?, c.isDigit = false ∧ c ≠ '.' ∧ c ≠ 'e' ∧ c ≠ 'E'

namespace Json

theorem wholeDigits_append {whole rest : List Char} (hw : IsWhole whole)
    (hr : ∀ c ∈ rest.head?, c.isDigit = false) : wholeDigits (whole ++ rest) = whole := by
  unfold wholeDigits
  split
  · next tail heq =>
    have hhead : whole.head? = some '0' := by
      rw [← head?_append_of_ne_nil hw.ne_nil, heq, List.head?_cons]
    exact (hw.zero_alone hhead).symm
  · exact takeWhile_digits hw.digits hr

section Fraction
variable {fraction behind : List Char} (hf : ∀ c ∈ fraction, c.isDigit = true)
  (hb : ∀ c ∈ behind.head?, c.isDigit = false ∧ c ≠ '.')
include hf hb

theorem fractionDigits_pointed : fractionDigits (pointed fraction ++ behind) = fraction := by
  unfold pointed
  split_ifs with h0
  · rw [List.nil_append, h0]
    unfold fractionDigits
    split
    · exact absurd rfl (hb '.' rfl).2
    · rfl
  · exact takeWhile_digits hf fun c hc => (hb c hc).1

theorem dropFraction_pointed : dropFraction (pointed fraction ++ behind) = behind := by
  unfold dropFraction
  rw [fractionDigits_pointed hf hb]
  split
  · simp [pointed]
  · next h0 =>
    have hne : fraction ≠ [] := h0
    simp [pointed, if_neg hne]

end Fraction

theorem exponentPrefix_none {rest : List Char} (hr : EndsNumber rest) :
    exponentPrefix rest = none := by
  unfold exponentPrefix
  split
  · next e tail =>
    obtain ⟨-, -, he⟩ := hr e rfl
    exact if_neg (not_or.mpr he)
  · rfl

theorem exponentPrefix_some (below : Bool) {digits rest : List Char}
    (hd : ∀ c ∈ digits, c.isDigit = true) (hne : digits ≠ []) (hr : EndsNumber rest) :
    exponentPrefix ('e' :: (if below then '-' else '+') :: (digits ++ rest)) =
      some (if below then -(Nat.ofDigitChars 10 digits 0 : Int) else Nat.ofDigitChars 10 digits 0,
        2 + digits.length) := by
  have hsplit : splitSign ((if below then '-' else '+') :: (digits ++ rest)) =
      (below, digits ++ rest) := by
    cases below <;> rfl
  unfold exponentPrefix
  simp only [true_or, if_true, hsplit, takeWhile_digits hd fun c hc => (hr c hc).1, if_neg hne,
    List.length_cons]
  congr 2
  omega

theorem head?_pointed {fraction behind : List Char}
    (hb : ∀ c ∈ behind.head?, c.isDigit = false ∧ c ≠ '.') :
    ∀ c ∈ (pointed fraction ++ behind).head?, c.isDigit = false := by
  unfold pointed
  split_ifs
  · exact fun c hc => (hb c hc).1
  · intro c hc
    cases hc
    decide

/-- **A number without a fraction and an exponent** is a whole number, if it is not too long. -/
theorem scanNumber_whole (negative : Bool) {whole rest : List Char} (hw : IsWhole whole)
    (hr : EndsNumber rest) :
    scanNumber negative (whole ++ rest) =
      some (if integerDigitLimit < whole.length then .tooLong whole.length
        else .scalar (.integer (if negative then -(Nat.ofDigitChars 10 whole 0 : Int)
          else Nat.ofDigitChars 10 whole 0)), rest) := by
  have hb : ∀ c ∈ rest.head?, c.isDigit = false ∧ c ≠ '.' := fun c hc =>
    ⟨(hr c hc).1, (hr c hc).2.1⟩
  have hf := fractionDigits_pointed isDigit_of_mem_nil hb
  have hd := dropFraction_pointed isDigit_of_mem_nil hb
  rw [pointed, if_pos rfl, List.nil_append] at hf hd
  unfold scanNumber
  simp only [wholeDigits_append hw fun c hc => (hb c hc).1, if_neg hw.ne_nil, List.drop_left, hf,
    hd, exponentPrefix_none hr]
  split_ifs <;> rfl

theorem scanNumber_integer (negative : Bool) {n : Nat} {rest : List Char}
    (hn : (Nat.toDigits 10 n).length ≤ integerDigitLimit) (hr : EndsNumber rest) :
    scanNumber negative (Nat.toDigits 10 n ++ rest) =
      some (.scalar (.integer (if negative then -(n : Int) else n)), rest) := by
  rw [scanNumber_whole negative (isWhole_toDigits n) hr, if_neg (Nat.not_lt.mpr hn),
    Nat.ofDigitChars_ten_toDigits]

section Number
variable (negative : Bool) {whole fraction rest : List Char} (hw : IsWhole whole)
  (hf : ∀ c ∈ fraction, c.isDigit = true) (hr : EndsNumber rest)
include hw hf hr

theorem scanNumber_fraction (h0 : fraction ≠ []) :
    scanNumber negative (whole ++ '.' :: fraction ++ rest) =
      some (.scalar (.number (Decimal.ofParts negative whole fraction 0).toBinary64), rest) := by
  have hb : ∀ c ∈ rest.head?, c.isDigit = false ∧ c ≠ '.' := fun c hc =>
    ⟨(hr c hc).1, (hr c hc).2.1⟩
  have hpoint : '.' :: fraction = pointed fraction := (if_neg h0).symm
  rw [hpoint, List.append_assoc]
  unfold scanNumber
  simp only [wholeDigits_append hw (head?_pointed hb), if_neg hw.ne_nil, List.drop_left,
    fractionDigits_pointed hf hb, dropFraction_pointed hf hb, exponentPrefix_none hr]

theorem scanNumber_exponent (below : Bool) {digits : List Char}
    (hd : ∀ c ∈ digits, c.isDigit = true) (hne : digits ≠ []) :
    scanNumber negative (whole ++ pointed fraction ++
        'e' :: (if below then '-' else '+') :: (digits ++ rest)) =
      some (.scalar (.number (Decimal.ofParts negative whole fraction
        (if below then -(Nat.ofDigitChars 10 digits 0 : Int)
          else Nat.ofDigitChars 10 digits 0)).toBinary64), rest) := by
  have hb : ∀ c ∈ ('e' :: (if below then '-' else '+') :: (digits ++ rest)).head?,
      c.isDigit = false ∧ c ≠ '.' := by
    intro c hc
    cases hc
    decide
  rw [List.append_assoc]
  unfold scanNumber
  simp only [wholeDigits_append hw (head?_pointed hb), if_neg hw.ne_nil, List.drop_left,
    fractionDigits_pointed hf hb, dropFraction_pointed hf hb, exponentPrefix_some below hd hne hr]
  have hdrop : ('e' :: (if below then '-' else '+') :: (digits ++ rest)).drop (2 + digits.length) =
      rest := by
    rw [Nat.add_comm, List.drop_succ_cons, List.drop_succ_cons, List.drop_left]
  rw [hdrop]

end Number

theorem exists_digit_of_scanNumber {negative : Bool} {cs : List Char}
    {found : JsonToken × List Char} (h : scanNumber negative cs = some found) :
    ∃ c tail, cs = c :: tail ∧ c.isDigit = true := by
  have hw : wholeDigits cs ≠ [] := by
    intro h0
    unfold scanNumber at h
    simp [h0] at h
  unfold wholeDigits at hw
  split at hw
  · exact ⟨'0', _, rfl, by decide⟩
  · rcases cs with _ | ⟨c, tail⟩
    · exact absurd rfl hw
    · refine ⟨c, tail, rfl, ?_⟩
      refine Decidable.byContradiction fun hc => hw ?_
      rw [List.takeWhile_cons, if_neg hc]

theorem scanScalar_signed {negative : Bool} {cs : List Char} {found : JsonToken × List Char}
    (h : scanNumber negative cs = some found) :
    scanScalar (Decimal.signed negative cs) = some found := by
  obtain ⟨c, tail, rfl, hc⟩ := exists_digit_of_scanNumber h
  have hne : ∀ d : Char, d.isDigit = false → c ≠ d := by
    rintro d hd rfl
    rw [hc] at hd
    cases hd
  have hword : scanWord (Decimal.signed negative (c :: tail)) = none := by
    have h1 := (hne 'n' (by decide)).symm
    have h2 := (hne 't' (by decide)).symm
    have h3 := (hne 'f' (by decide)).symm
    have h4 := (hne 'N' (by decide)).symm
    have h5 := (hne 'I' (by decide)).symm
    have h6 := (hne '-' (by decide)).symm
    cases negative <;>
      simp [scanWord, words, Decimal.signed, List.isPrefixOf, h1, h2, h3, h4, h5, h6]
  cases negative with
  | true =>
    unfold scanScalar
    split
    · next heq => exact absurd (List.cons.inj heq).1 (by decide)
    · rw [hword]
      exact h
  | false =>
    unfold scanScalar
    split
    · next heq => exact absurd (List.cons.inj heq).1 (hne '"' (by decide))
    · rw [hword]
      split
      · next heq => cases heq
      · split
        · next heq => exact absurd (List.cons.inj heq).1 (hne '-' (by decide))
        · exact h

theorem signed_append (negative : Bool) (text rest : List Char) :
    Decimal.signed negative text ++ rest = Decimal.signed negative (text ++ rest) := by
  cases negative <;> rfl

theorem scanScalar_integerText {n : Int} {rest : List Char}
    (hn : (Nat.toDigits 10 n.natAbs).length ≤ integerDigitLimit) (hr : EndsNumber rest) :
    scanScalar (integerText n ++ rest) = some (.scalar (.integer n), rest) := by
  have hself : (if decide (n < 0) = true then -(n.natAbs : Int) else n.natAbs) = n := by
    simp only [decide_eq_true_eq]
    split_ifs <;> omega
  have hscan := scanNumber_integer (decide (n < 0)) hn hr
  rw [hself] at hscan
  rw [integerText, signed_append, scanScalar_signed hscan]

theorem scanScalar_word {text : List Char} {value : Json} (h : (text, value) ∈ words)
    (rest : List Char) : scanScalar (text ++ rest) = some (.scalar value, rest) := by
  simp only [words, List.mem_cons, List.not_mem_nil, or_false, Prod.mk.injEq] at h
  rcases h with ⟨rfl, rfl⟩ | ⟨rfl, rfl⟩ | ⟨rfl, rfl⟩ | ⟨rfl, rfl⟩ | ⟨rfl, rfl⟩ | ⟨rfl, rfl⟩ <;> rfl

end Json

/-! ### The text of a double -/

namespace Decimal

theorem exponentDigits_digits (n : Nat) : (∀ c ∈ exponentDigits n, c.isDigit = true) ∧
    exponentDigits n ≠ [] ∧ Nat.ofDigitChars 10 (exponentDigits n) 0 = n := by
  have hdigit := isDigit_padded 1 n
  have hvalue := ofDigitChars_padded 1 n
  have hwhole := isWhole_toDigits n
  unfold exponentDigits
  split_ifs
  · exact ⟨hdigit, List.cons_ne_nil _ _, hvalue⟩
  · exact ⟨hwhole.digits, hwhole.ne_nil, Nat.ofDigitChars_ten_toDigits⟩

end Decimal

/-! ### Each form of a text is read back -/

section Forms
variable (s : Bool) (c : Nat) (k : Int)

/-- Plain digits are a whole number with perhaps a fraction, and write the decimal with the zeros of
its exponent in the coefficient. -/
theorem Decimal.exists_plain : ∃ whole fraction,
    plain ⟨s, c, k⟩ = whole ++ pointed fraction ∧ IsWhole whole ∧
      (∀ d ∈ fraction, d.isDigit = true) ∧ fraction.length = (-k).toNat ∧
      ofParts s whole fraction 0 = ⟨s, c * tenTo k.toNat, -((-k).toNat : Int)⟩ := by
  obtain ⟨whole, fraction, htext, hw, hf, hlen, hvalue⟩ :=
    exists_pointAt (-k).toNat (c * tenTo k.toNat)
  refine ⟨whole, fraction, htext, hw, hf, hlen, ?_⟩
  rw [Numeral.ofParts_eq, hvalue, hlen]

theorem Decimal.ofParts_zero {whole : List Char} {exponent : Int}
    (h : ofParts s whole [] 0 = ⟨s, c, exponent⟩) :
    ofParts s whole ['0'] 0 = ⟨s, c * 10, -1⟩ := by
  have hdigit : ∀ n, Nat.ofDigitChars 10 ['0'] n = n * 10 := fun n => by
    rw [Nat.ofDigitChars_cons, Nat.ofDigitChars_nil, Nat.mul_comm]
    rfl
  rw [Numeral.ofParts_eq, List.append_nil] at h
  rw [Numeral.ofParts_eq, Nat.ofDigitChars_append, hdigit, (mk.inj h).2.1]
  rfl

/-- One digit before the point, the others behind it, and the exponent that makes up for it. -/
theorem Decimal.exists_scientific (hlow : -400 ≤ k) (hhigh : k ≤ 400) :
    ∃ whole fraction digits, ∃ below : Bool,
      scientific ⟨s, c, k⟩ =
          whole ++ pointed fraction ++ 'e' :: (if below then '-' else '+') :: digits ∧
        IsWhole whole ∧ (∀ d ∈ fraction, d.isDigit = true) ∧
        (∀ d ∈ digits, d.isDigit = true) ∧ digits ≠ [] ∧
        ofParts s whole fraction (if below then -(Nat.ofDigitChars 10 digits 0 : Int)
          else Nat.ofDigitChars 10 digits 0) = ⟨s, c, k⟩ := by
  have hwhole := isWhole_toDigits c
  have hself : Nat.ofDigitChars 10 (Nat.toDigits 10 c) 0 = c := Nat.ofDigitChars_ten_toDigits
  unfold scientific point
  simp only
  cases hdigits : Nat.toDigits 10 c with
  | nil => exact absurd hdigits hwhole.ne_nil
  | cons d fraction =>
    rw [hdigits] at hwhole hself
    obtain ⟨hdigit, hne, hexp⟩ :=
      exponentDigits_digits (((d :: fraction).length : Int) + k - 1).natAbs
    refine ⟨[d], fraction, _, decide (((d :: fraction).length : Int) + k - 1 < 0), ?_,
      hwhole.take (n := 1) (by decide), fun x hx => hwhole.digits x (List.mem_cons_of_mem _ hx),
      hdigit, hne, ?_⟩
    · simp only [decide_eq_true_eq]
      cases fraction <;> rfl
    · rw [hexp]
      simp only [ofParts, List.cons_append, List.nil_append, hself, decide_eq_true_eq,
        List.length_cons, mk.injEq, true_and]
      split_ifs <;> omega

end Forms

section Text
variable (s : Bool) {m : Nat} (hm : Representable m)
include hm

theorem exponent_shortestDecimal_bounds :
    -400 ≤ (Binary64.shortestDecimal s m).exponent ∧
      (Binary64.shortestDecimal s m).exponent ≤ 400 := by
  by_cases h0 : m = 0
  · have hzero : (Binary64.shortestDecimal s m).exponent = 0 := by
      rw [h0, Binary64.shortestDecimal_zero]
    omega
  · obtain ⟨c, hc⟩ := Option.isSome_iff_exists.mp (isSome_onGrid?_finest hm)
    have hlow := le_exponent_of_reads hm s h0 (onGrid?_reads hc)
    have hself : readUnits (Binary64.shortestDecimal s m).coefficient
        (Binary64.shortestDecimal s m).exponent = m :=
      Decimal.readUnits_of_toBinary64 (Binary64.toBinary64_shortestDecimal s hm)
    have hhigh := lt_scaleOf_of_reads hm h0 hself
    have hlog := log2_lt_of_lt_unitsBound hm.2
    unfold scaleOf at hlow hhigh
    omega

/-- **The text of a finite double is read back,** behind its sign. -/
theorem Json.scanNumber_general {rest : List Char} (hr : EndsNumber rest) :
    Json.scanNumber s ((Binary64.shortestDecimal s m).general ++ rest) =
      some (.scalar (.number (.finite s m hm)), rest) := by
  have hvalue := Binary64.toBinary64_shortestDecimal s hm
  have hbounds := exponent_shortestDecimal_bounds s hm
  have hsign := (Binary64.negative_shortestDecimal s m).symm
  generalize Binary64.shortestDecimal s m = d at hvalue hbounds hsign
  obtain ⟨sign, c, k⟩ := d
  subst hsign
  unfold Decimal.general
  split_ifs with hplain hplaces
  · obtain ⟨whole, fraction, htext, hw, hf, hlen, hread⟩ := Decimal.exists_plain s c k
    obtain rfl : fraction = [] := List.eq_nil_of_length_eq_zero (hlen.trans hplaces)
    have hzero : (-k).toNat = 0 := hplaces
    rw [htext, pointed, if_pos rfl, List.append_nil,
      scanNumber_fraction s hw isDigit_of_mem_zero hr (List.cons_ne_nil _ _),
      Decimal.ofParts_zero _ _ hread, Decimal.toBinary64_mul_ten, ← hvalue,
      ← Decimal.toBinary64_mul_tenTo s c k, hzero]
    rfl
  · obtain ⟨whole, fraction, htext, hw, hf, hlen, hread⟩ := Decimal.exists_plain s c k
    have hne : fraction ≠ [] := by
      rintro rfl
      exact hplaces hlen.symm
    rw [htext, pointed, if_neg hne, scanNumber_fraction s hw hf hr hne, hread,
      Decimal.toBinary64_mul_tenTo, hvalue]
  · obtain ⟨whole, fraction, digits, below, htext, hw, hf, hd, hne, hread⟩ :=
      Decimal.exists_scientific s c k hbounds.1 hbounds.2
    rw [htext, List.append_assoc, List.cons_append, List.cons_append,
      scanNumber_exponent s hw hf hr below hd hne, hread, hvalue]

end Text

theorem Json.scanScalar_numberText (x : Binary64) {rest : List Char} (hr : EndsNumber rest) :
    Json.scanScalar (numberText x ++ rest) = some (.scalar (.number x), rest) := by
  have hword : ∀ {text : List Char} {value : Json}, (text, value) ∈ words →
      scanScalar (text ++ rest) = some (.scalar value, rest) := fun h => scanScalar_word h rest
  cases x with
  | finite s m hm =>
    rw [numberText, Binary64.text, String.toList_ofList, signed_append]
    · exact scanScalar_signed (scanNumber_general s hm hr)
    · simp
    · simp
  | infinite s =>
    cases s
    · exact hword (by simp [words, numberText])
    · exact hword (by simp [words, numberText])
  | nan => exact hword (by simp [words, numberText])

end PocketCalculator
