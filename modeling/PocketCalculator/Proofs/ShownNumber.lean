import PocketCalculator.Proofs.ResultLine
import PocketCalculator.Proofs.WrittenNumbers

/-! # The shown text of a number

The display shows a finite double in plain digits, without an exponent and without a zero that could
be left out (`IsPositional`). This text and the text with an exponent where there is one write the
same number, which is the shortest decimal of the double (`ofSigned?_shown`, `ofSigned?_text`), and
as many places are shown as this decimal has (`placesOf_shown`). The scanner takes the digits and
the point as one number; a minus sign in front of them becomes a difference from zero
(`tokenize_shown`). All of this is `isShownInDigits_of_isFinite`.

* `Decimal.number`: the exact value of a decimal.
* `Decimal.ofSigned?`: the decimal that a text writes. -/

namespace PocketCalculator

/-- A sign if there is one, digits with no zero in front, and perhaps a point and digits with no
zero at their end. -/
def IsPositional (text : List Char) : Prop :=
  ∃ negative whole fraction, text = Decimal.signed negative (whole ++ pointed fraction) ∧
    IsWhole whole ∧ (∀ d ∈ fraction, d.isDigit = true) ∧ fraction.getLast? ≠ some '0'

namespace Decimal

/-! ### The number that a decimal is -/

/-- The exact value of a decimal. -/
def number (d : Decimal) : Rat :=
  mkRat ((if d.negative then -1 else 1) * (d.coefficient * tenTo d.exponent.toNat : Nat))
    (tenTo (-d.exponent).toNat)

section Number
variable (s : Bool) (c : Nat) (k : Int)

theorem number_mul_ten : number ⟨s, c * 10, k⟩ = number ⟨s, c, k + 1⟩ := by
  obtain ⟨t, ht, hnumerator, hdenominator⟩ := exists_factor_mul_ten c k
  unfold number
  simp only
  rw [hnumerator, hdenominator, Int.natCast_mul _ t, ← Int.mul_assoc]
  exact Rat.mkRat_mul_right (Nat.ne_of_gt ht)

theorem number_mul_tenTo :
    number ⟨s, c * tenTo k.toNat, -((-k).toNat : Int)⟩ = number ⟨s, c, k⟩ := by
  obtain ⟨hnumerator, hdenominator⟩ := tenTo_places k
  unfold number
  simp only [hnumerator, hdenominator, Nat.mul_one]

theorem number_zero : number ⟨s, 0, k⟩ = 0 := by
  unfold number
  simp only [Nat.zero_mul]
  exact (congrArg (mkRat · _) (Int.mul_zero _)).trans (Rat.zero_mkRat _)

end Number

/-! ### The decimal that a text writes -/

/-- The decimal that a text writes, with its sign. No double is written with so large an exponent
that it would be cut. -/
def ofSigned? (text : List Char) : Option Decimal :=
  ofUnsigned? (splitSign text).1 (splitSign text).2

theorem ofUnsigned?_append (s : Bool) {whole fraction behind : List Char} (hw : IsWhole whole)
    (hf : ∀ c ∈ fraction, c.isDigit = true)
    (hb : ∀ c ∈ behind.head?, c.isDigit = false ∧ c ≠ '.') :
    ofUnsigned? s (whole ++ pointed fraction ++ behind) =
      (readExponent? behind).map (ofParts s whole fraction) := by
  have hhead := @Json.head?_pointed fraction behind hb
  have hd : ∀ c ∈ behind.head?, c.isDigit = false := fun c hc => (hb c hc).1
  have hsome : ¬(whole = [] ∧ fraction = []) := fun h => hw.ne_nil h.1
  rw [List.append_assoc]
  unfold ofUnsigned?
  simp only [takeWhile_digits hw.digits hhead, dropWhile_digits hw.digits hhead]
  by_cases h0 : fraction = []
  · subst h0
    rw [pointed, if_pos rfl, List.nil_append]
    split
    · exact absurd rfl (hb '.' rfl).2
    · exact if_neg hsome
  · rw [pointed, if_neg h0]
    simp only [List.cons_append, takeWhile_digits hf hd, dropWhile_digits hf hd, if_neg hsome]

theorem splitSign_signed (negative : Bool) {whole : List Char} (hw : IsWhole whole)
    (rest : List Char) :
    splitSign (signed negative (whole ++ rest)) = (negative, whole ++ rest) := by
  obtain ⟨d, ds, rfl⟩ := List.exists_cons_of_ne_nil hw.ne_nil
  have hd := hw.digits d List.mem_cons_self
  cases negative with
  | true => rfl
  | false =>
    unfold splitSign
    split
    · next heq =>
      rw [(List.cons.inj heq).1] at hd
      cases hd
    · next heq =>
      rw [(List.cons.inj heq).1] at hd
      cases hd
    · rfl

/-- **A text behind its sign** is read as what its digits, its fraction and what follows write. -/
theorem ofSigned?_append (s : Bool) {whole fraction behind : List Char} (hw : IsWhole whole)
    (hf : ∀ c ∈ fraction, c.isDigit = true)
    (hb : ∀ c ∈ behind.head?, c.isDigit = false ∧ c ≠ '.') :
    ofSigned? (signed s (whole ++ pointed fraction ++ behind)) =
      (readExponent? behind).map (ofParts s whole fraction) := by
  have hsplit := splitSign_signed s hw (pointed fraction ++ behind)
  rw [← List.append_assoc] at hsplit
  rw [ofSigned?, hsplit]
  exact ofUnsigned?_append s hw hf hb

theorem ofSigned?_digits (s : Bool) {whole fraction : List Char} (hw : IsWhole whole)
    (hf : ∀ c ∈ fraction, c.isDigit = true) :
    ofSigned? (signed s (whole ++ pointed fraction)) = some (ofParts s whole fraction 0) := by
  have hnothing : ∀ c ∈ ([] : List Char).head?, c.isDigit = false ∧ c ≠ '.' := by simp
  rw [← List.append_nil (whole ++ pointed fraction), ofSigned?_append s hw hf hnothing]
  rfl

section Forms
variable (s : Bool) (c : Nat) (k : Int)

theorem ofSigned?_plain (t : Bool) :
    ∃ d, ofSigned? (signed s (plain ⟨t, c, k⟩)) = some d ∧ d.number = number ⟨s, c, k⟩ := by
  obtain ⟨whole, fraction, htext, hw, hf, -, hparts⟩ := exists_plain s c k
  have hplain : plain ⟨t, c, k⟩ = plain ⟨s, c, k⟩ := rfl
  rw [hplain, htext, ofSigned?_digits s hw hf]
  refine ⟨_, rfl, ?_⟩
  rw [hparts, number_mul_tenTo]

theorem ofSigned?_general (hlow : -400 ≤ k) (hhigh : k ≤ 400) :
    ∃ d, ofSigned? (signed s (general ⟨s, c, k⟩)) = some d ∧ d.number = number ⟨s, c, k⟩ := by
  unfold general
  split_ifs with hplain hplaces
  · obtain ⟨whole, fraction, htext, hw, hf, hlen, hparts⟩ := exists_plain s c k
    obtain rfl : fraction = [] := List.eq_nil_of_length_eq_zero (hlen.trans hplaces)
    have hpoint : ['.', '0'] = pointed ['0'] := rfl
    have hzero : (-k).toNat = 0 := hplaces
    rw [htext, pointed, if_pos rfl, List.append_nil, hpoint,
      ofSigned?_digits s hw isDigit_of_mem_zero]
    refine ⟨_, rfl, ?_⟩
    rw [ofParts_zero _ _ hparts, number_mul_ten, ← number_mul_tenTo s c k, hzero]
    rfl
  · exact ofSigned?_plain s c k s
  · obtain ⟨whole, fraction, digits, below, htext, hw, hf, hd, hne, hparts⟩ :=
      exists_scientific s c k hlow hhigh
    have hletter : ∀ x ∈ ('e' :: (if below then '-' else '+') :: digits).head?,
        x.isDigit = false ∧ x ≠ '.' := by
      intro x hx
      cases hx
      decide
    have hexponent : readExponent? ('e' :: (if below then '-' else '+') :: digits) =
        some (if below then -(Nat.ofDigitChars 10 digits 0 : Int)
          else Nat.ofDigitChars 10 digits 0) := by
      have hall : digits.all Char.isDigit = true := List.all_eq_true.mpr hd
      cases below <;> exact if_pos ⟨hne, hall⟩
    rw [htext, ofSigned?_append s hw hf hletter, hexponent]
    refine ⟨_, rfl, ?_⟩
    rw [hparts]

end Forms

/-! ### No zero can be left out -/

theorem isPositional_plain (s t : Bool) {c : Nat} {k : Int} (h : k < 0 → c % 10 ≠ 0) :
    IsPositional (signed s (plain ⟨t, c, k⟩)) := by
  obtain ⟨whole, fraction, htext, hw, hf, hlen, hvalue⟩ :=
    exists_pointAt (-k).toNat (c * tenTo k.toNat)
  refine ⟨s, whole, fraction, congrArg (signed s) htext, hw, hf, fun hlast => ?_⟩
  obtain ⟨front, rfl⟩ := List.getLast?_eq_some_iff.mp hlast
  rw [List.length_append, List.length_singleton] at hlen
  have hk : k.toNat = 0 := by omega
  rw [hk, tenTo_zero, Nat.mul_one, ← List.append_assoc, Nat.ofDigitChars_append,
    Nat.ofDigitChars_cons, Nat.ofDigitChars_nil] at hvalue
  refine h (by omega) ?_
  rw [← hvalue]
  exact Nat.mul_mod_right 10 _

end Decimal

/-! ### The places of a text -/

/-- The number of characters behind the point of a text; `0` if there is none. -/
def placesOf (text : String) : Nat := ((text.toList.dropWhile (· ≠ '.')).drop 1).length

theorem ne_point_of_isDigit {c : Char} (h : c.isDigit = true) : c ≠ '.' := by
  rintro rfl
  cases h

theorem dropWhile_point {front : List Char} (hfront : ∀ c ∈ front, c ≠ '.') (fraction : List Char) :
    ((front ++ pointed fraction).dropWhile (· ≠ '.')).drop 1 = fraction := by
  rw [List.dropWhile_append_of_pos fun c hc => decide_eq_true (hfront c hc)]
  unfold pointed
  split_ifs with h0
  · exact h0.symm
  · rfl

/-- **As many places are shown** as the shortest decimal has. -/
theorem placesOf_shown (s : Bool) {m : Nat} (hm : Representable m) :
    placesOf (Binary64.finite s m hm).shown = (Binary64.shortestDecimal s m).places := by
  rw [placesOf, Binary64.shown, String.toList_ofList]
  generalize Binary64.shortestDecimal s m = d
  obtain ⟨whole, fraction, htext, hw, hf, hlen, -⟩ :=
    Decimal.exists_pointAt d.places (d.coefficient * tenTo d.exponent.toNat)
  have hplain : d.plain = whole ++ pointed fraction := htext
  have hwhole : ∀ c ∈ whole, c ≠ '.' := fun c hc => ne_point_of_isDigit (hw.digits c hc)
  rw [hplain]
  rcases (s && m != 0) with _ | _
  · exact (congrArg List.length (dropWhile_point hwhole fraction)).trans hlen
  · have hsigned : ∀ c ∈ '-' :: whole, c ≠ '.' := List.forall_mem_cons.mpr ⟨by decide, hwhole⟩
    exact (congrArg List.length (dropWhile_point hsigned fraction)).trans hlen

/-! ### The shown text -/

namespace Binary64

variable (s : Bool) {m : Nat} (hm : Representable m)

theorem isPositional_shown : IsPositional (finite s m hm).shown.toList := by
  have hlast := coefficient_shortestDecimal s hm
  rw [shown, String.toList_ofList]
  generalize shortestDecimal s m = d at hlast
  exact Decimal.isPositional_plain (s && m != 0) d.negative hlast

theorem shown_ne_negative_zero : (finite s m hm).shown ≠ "-0" := by
  intro h
  obtain ⟨a, htext, hvalue⟩ := exists_shown s hm
  have hzero : "-0".toList = '-' :: Numeral.zero.text := rfl
  rw [h, hzero] at htext
  rcases hs : (s && m != 0) with _ | _
  · rw [hs] at htext
    have hunsigned : '-' :: Numeral.zero.text = a.text := htext
    exact a.forall_mem_text (P := (· ≠ '-')) (by decide) '-' (hunsigned ▸ List.mem_cons_self) rfl
  · rw [hs] at htext
    rw [Numeral.value_congr (List.cons.inj htext).2.symm, Numeral.value_zero] at hvalue
    cases hvalue
    rw [Bool.and_eq_true] at hs
    exact absurd hs.2 (by decide)

/-- **The shown text writes the shortest decimal.** -/
theorem ofSigned?_shown : ∃ d, Decimal.ofSigned? (finite s m hm).shown.toList = some d ∧
    d.number = (shortestDecimal s m).number := by
  rw [shown, String.toList_ofList]
  by_cases h0 : m = 0
  · subst h0
    obtain ⟨d, hd, hnumber⟩ := Decimal.ofSigned?_plain (s && 0 != 0) 0 0 s
    rw [shortestDecimal_zero]
    exact ⟨d, hd, hnumber.trans ((Decimal.number_zero _ 0).trans (Decimal.number_zero s 0).symm)⟩
  · have hsign : (s && m != 0) = (shortestDecimal s m).negative := by
      rw [negative_shortestDecimal, bne_iff_ne.mpr h0, Bool.and_true]
    rw [hsign]
    exact Decimal.ofSigned?_plain _ _ _ _

theorem ofSigned?_text : ∃ d, Decimal.ofSigned? (finite s m hm).text.toList = some d ∧
    d.number = (shortestDecimal s m).number := by
  have hbounds := exponent_shortestDecimal_bounds s hm
  have hsign := (negative_shortestDecimal s m).symm
  rw [text, String.toList_ofList]
  generalize shortestDecimal s m = d at hbounds hsign
  subst hsign
  exact Decimal.ofSigned?_general _ _ _ hbounds.1 hbounds.2

theorem decide_signedUnits_neg : decide ((finite s m hm).signedUnits < 0) = (s && m != 0) := by
  rw [Bool.eq_iff_iff, decide_eq_true_eq, Bool.and_eq_true, bne_iff_ne]
  cases s <;> simp only [signedUnits, Bool.false_eq_true, if_true, if_false, true_and, false_and,
    iff_false] <;> omega

/-- **The tokens of a shown number:** its digits and its point as one number, behind a zero and a
minus if the number is negative. -/
theorem tokenize_shown : ∃ unsigned : String,
    (finite s m hm).shown.toList = Decimal.signed (s && m != 0) unsigned.toList ∧
      tokenize (finite s m hm).shown =
        .ok ((if s && m != 0 then [.number "0", Operator.subtract.token] else []) ++
          [.number unsigned]) := by
  obtain ⟨n, htext, -⟩ := exists_shown s hm
  have hwritten := written_operand n
  refine ⟨n.string, by rw [n.toList_string, htext], ?_⟩
  unfold tokenize
  rcases hs : (s && m != 0) with _ | _
  · rw [hs] at htext
    rw [tokensOf_written none _ hwritten htext]
    rfl
  · rw [hs] at htext
    rw [tokensOf_written (some minusSign) _ hwritten htext]
    rfl

/-- What is shown of a double. -/
structure IsShownInDigits (v : Binary64) : Prop where
  /-- There is no exponent, and no zero or point that could be left out. -/
  positional : IsPositional v.shown.toList
  /-- A zero has no sign. -/
  ne_negative_zero : v.shown ≠ "-0"
  /-- The number is exactly the one that the text of the double writes. -/
  number : ∃ d e, Decimal.ofSigned? v.shown.toList = some d ∧
    Decimal.ofSigned? v.text.toList = some e ∧ d.number = e.number
  /-- The scanner takes all but the sign as one number, behind a zero and a minus if the double is
  negative. -/
  tokens : ∃ unsigned : String,
    v.shown.toList = Decimal.signed (decide (v.signedUnits < 0)) unsigned.toList ∧
      tokenize v.shown =
        .ok ((if v.signedUnits < 0 then [.number "0", Operator.subtract.token] else []) ++
          [.number unsigned])

/-- **A finite double is shown in digits,** as the number that its text writes, and the scanner
takes what is shown as one number behind the sign. -/
theorem isShownInDigits_of_isFinite {v : Binary64} (hv : v.isFinite = true) :
    v.IsShownInDigits := by
  obtain ⟨s, m, hm, rfl⟩ := exists_of_isFinite hv
  refine ⟨isPositional_shown s hm, shown_ne_negative_zero s hm, ?_, ?_⟩
  · obtain ⟨d, hd, hnumber⟩ := ofSigned?_shown s hm
    obtain ⟨e, he, hnumber'⟩ := ofSigned?_text s hm
    exact ⟨d, e, hd, he, hnumber.trans hnumber'.symm⟩
  · obtain ⟨unsigned, htext, htokens⟩ := tokenize_shown s hm
    have hsign := decide_signedUnits_neg s hm
    refine ⟨unsigned, by rw [hsign, htext], ?_⟩
    rw [← hsign] at htokens
    simpa only [decide_eq_true_eq] using htokens

/-- The double nearest to `-0.0000125`. -/
def negativeEightyThousandth : Binary64 := Decimal.toBinary64 ⟨true, 125, -7⟩

theorem isShownInDigits_negative :
    negativeEightyThousandth.isFinite = true ∧ negativeEightyThousandth.text = "-1.25e-05" ∧
      negativeEightyThousandth.shown = "-0.0000125" ∧ negativeEightyThousandth.IsShownInDigits := by
  have hfinite : negativeEightyThousandth.isFinite = true := by decide +kernel
  exact ⟨hfinite, by decide +kernel, by decide +kernel, isShownInDigits_of_isFinite hfinite⟩

end Binary64

end PocketCalculator
