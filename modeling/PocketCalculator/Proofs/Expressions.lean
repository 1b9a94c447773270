import PocketCalculator.Proofs.Outcome

/-! # The outcome of a written expression

An expression may be written with skipped characters around its tokens and with a sign in front of
everything. The sign stands for a zero and an operator before the first product
(`tokensOf_written`), and the line comes to what the tree comes to (`calculate_written`). -/

namespace PocketCalculator

/-- A sign: an operator of the level of sums. -/
abbrev Sign := { op : Operator // op.level = .sum }

/-- The minus as a sign. -/
def minusSign : Sign := ⟨.subtract, Operator.level_subtract⟩

/-- The text of a sign, if there is one. -/
def signText : Option Sign → List Char
  | none => []
  | some sign => [sign.1.symbol]

/-- An expression with a sign in front, if there is one. -/
def Phrase.withSign (sign : Option Sign) (e : Phrase Numeral .sum) : Phrase Numeral .sum :=
  match sign with
  | none => e
  | some sign => e.signed .zero sign.1 sign.2

theorem withLeadingZero_sign (sign : Sign) (cs : List Char) :
    withLeadingZero (sign.1.symbol :: cs) = '0' :: sign.1.symbol :: cs := by
  obtain ⟨op, hop⟩ := sign
  cases op with
  | add => rfl
  | subtract => rfl
  | multiply => cases hop
  | divide => cases hop

theorem withLeadingZero_of_head {cs : List Char} (h : ∀ c ∈ cs.head?, c ≠ '+' ∧ c ≠ '-') :
    withLeadingZero cs = cs := by
  rcases cs with _ | ⟨c, cs⟩
  · rfl
  · have hc := h c (by simp)
    exact if_neg fun hor => hor.elim hc.1 hc.2

theorem Written.head_of_operand {ts : List Token} {cs : List Char} (h : Written ts cs)
    (hts : ∀ t ∈ ts, IsLineToken Numeral.string t) (ha : alternates true ts = true) :
    ∀ c ∈ cs.head?, c ≠ '+' ∧ c ≠ '-' := by
  have hskip : ∀ c, isSkipped c = true → c ≠ '+' ∧ c ≠ '-' := by
    intro c hc
    refine ⟨?_, ?_⟩ <;> rintro rfl <;> exact absurd hc (by decide)
  refine h.forall_head hskip fun t ht => ?_
  obtain ⟨ts, rfl⟩ := List.head?_eq_some_iff.mp ht
  cases hts t (by simp) with
  | operator op => cases ha
  | closing => cases ha
  | opening => exact ⟨'(', [], rfl, by decide⟩
  | number n =>
    obtain ⟨d, ds, hd⟩ := List.exists_cons_of_ne_nil n.text_ne_nil
    exact ⟨d, ds, n.toList_string.trans hd,
      n.forall_mem_text (P := fun c => c ≠ '+' ∧ c ≠ '-') (by decide) d (by simp [hd])⟩

/-- **The tokens of a written expression.** -/
theorem tokensOf_written (sign : Option Sign) (e : Phrase Numeral .sum) {body : List Char}
    (hbody : Written (e.tokens Numeral.string) body) {line : String}
    (hline : line.toList = signText sign ++ body) :
    tokensOf line = (e.withSign sign).tokens Numeral.string := by
  have hts := e.isLineToken_tokens Numeral.string
  have ha := e.alternates_sum Numeral.string
  have hscan := map_ofText_lexemes hbody hts ha
  unfold tokensOf
  rw [hline]
  rcases sign with _ | sign
  · have hhead := hbody.head_of_operand hts ha
    rw [signText, List.nil_append, withLeadingZero_of_head hhead, hscan]
    rfl
  · have hend : Numeral.zero.EndsBefore (sign.1.symbol :: body) := by
      intro c hc
      cases hc
      exact (isDigit_of_isSymbol sign.1.isSymbol_symbol).imp_right fun hne _ => hne
    have hzero : lexemes ('0' :: sign.1.symbol :: body) =
        ['0'] :: [sign.1.symbol] :: lexemes body := by
      rw [← lexemes_symbol sign.1.isSymbol_symbol]
      exact lexemes_numeral .zero hend
    rw [signText, List.singleton_append, withLeadingZero_sign, hzero, Phrase.withSign,
      Phrase.tokens_signed, List.map_cons, List.map_cons, hscan]
    show Token.ofText Numeral.zero.string :: Token.ofText sign.1.text :: _ = _
    rw [ofText_numeral, ofText_symbol]

/-- **A written expression comes to what its tree comes to.** -/
theorem calculate_written {settings : Settings} (hp : 0 ≤ settings.displayDecimals)
    (sign : Option Sign) (e : Phrase Numeral .sum) {body : List Char}
    (hbody : Written (e.tokens Numeral.string) body) {line : String}
    (hline : line.toList = signText sign ++ body) :
    ∃ outcome, calculate settings line = .ok outcome ∧
      Settles settings ((e.withSign sign).tree.value? Numeral.value) outcome :=
  calculate_of_tokens Numeral.ofText?_string hp (tokensOf_written sign e hbody hline)

/-- The product `1.5 * (2 + .5)` over `4`. -/
def nestedExpression : Phrase Numeral .sum :=
  .term (.product (.product
    (.factor (.number ⟨['1'], some ['5'], forall_of_all rfl, forall_of_all rfl, by decide⟩))
    .multiply Operator.level_multiply
    (.group (.sum
      (.term (.factor (.number (.digit 2)))) .add Operator.level_add
      (.factor (.number ⟨[], some ['5'], isDigit_of_mem_nil, forall_of_all rfl, by decide⟩)))))
    .divide Operator.level_divide
    (.number (.digit 4)))

theorem calculate_written_nested :
    0 ≤ Settings.standard.displayDecimals ∧
      ∃ outcome, calculate .standard "- 1.5 *(2x+ .5)/4;" = .ok outcome ∧
        Settles .standard
          ((nestedExpression.withSign (some minusSign)).tree.value? Numeral.value) outcome :=
  have none : ∀ c ∈ [], isSkipped c = true := by simp
  have blank : ∀ c ∈ [' '], isSkipped c = true := forall_of_all rfl
  have letter : ∀ c ∈ ['x'], isSkipped c = true := forall_of_all rfl
  have mark : ∀ c ∈ [';'], isSkipped c = true := forall_of_all rfl
  ⟨by decide, calculate_written (by decide) (some minusSign) nestedExpression
    (.token blank (.token blank (.token none (.token none (.token letter (.token blank
      (.token none (.token none (.token none (.done mark)))))))))) (by rfl)⟩

end PocketCalculator
