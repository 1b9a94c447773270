import PocketCalculator.Proofs.Outcome

/-! # Which lines have a value

Every line has an outcome: no text at all is a fault (`calculate_settled`). A line has a value just
if its postfix order is the postorder of a tree with a finite value (`exists_value_iff`). Nothing
asks that operands and operators alternate in the line, so that some lines have a value although
their tokens are no sentence of the grammar: `value_without_sentence_iff` says which. -/

namespace PocketCalculator

variable {settings : Settings}

/-- **Every line has an outcome:** a finite value that is not a negative zero, or a failure of one
of five kinds. -/
theorem calculate_settled (hp : 0 ≤ settings.displayDecimals) (line : String) :
    (∃ v, calculate settings line = .ok (.value v) ∧ v.isFinite = true ∧ v ≠ .zero true) ∨
      ∃ kind cause, calculate settings line = .ok (.failed kind cause) ∧
        cause.kind? = some kind ∧ kind ∈ lineKinds := by
  obtain ⟨outcome, hcalc, hout⟩ := exists_calculate hp line
  cases hout with
  | @value v hfin hz => exact Or.inl ⟨v, hcalc, hfin, hz⟩
  | @failed kind cause hk hmem => exact Or.inr ⟨kind, cause, hcalc, hk, hmem⟩

theorem calculate_settled_mixed :
    0 ≤ Settings.standard.displayDecimals ∧
      ((∃ v, calculate .standard "2)(1e5" = .ok (.value v) ∧ v.isFinite = true ∧
          v ≠ .zero true) ∨
        ∃ kind cause, calculate .standard "2)(1e5" = .ok (.failed kind cause) ∧
          cause.kind? = some kind ∧ kind ∈ lineKinds) :=
  ⟨by decide, calculate_settled (by decide) "2)(1e5"⟩

/-! ### Lines with a value -/

theorem nesting_of_toPostfix {line : String} {out : List Token}
    (h : toPostfix (tokensOf line) = .ok out) :
    nesting? 0 (tokensOf line) = some 0 ∧ ∀ t ∈ out, IsPostfixToken Numeral.string t := by
  have hnest := toPostfix_nesting Numeral.string (isLineToken_of_mem_tokensOf line)
  match heq : nesting? 0 (tokensOf line), hnest with
  | none, hnest => rw [h] at hnest; cases hnest
  | some (_ + 1), hnest => rw [h] at hnest; cases hnest
  | some 0, ⟨ts, hts, hall⟩ =>
    rw [h] at hts
    cases hts
    exact ⟨rfl, hall⟩

/-- **The lines with a value** are those whose postfix order is that of a tree with a finite
value. -/
theorem exists_value_iff (hp : 0 ≤ settings.displayDecimals) (line : String) :
    (∃ v, calculate settings line = .ok (.value v)) ↔
      ∃ (t : Tree Numeral) (x : Binary64),
        toPostfix (tokensOf line) = .ok (t.postorder Numeral.string) ∧
          t.value? Numeral.value = some x ∧ x.isFinite = true := by
  refine ⟨fun ⟨v, hv⟩ => ?_, fun ⟨t, x, ht, hx, hfin⟩ => ?_⟩
  · have hl : ∃ x, lineValue line = .ok x := by
      unfold calculate at hv
      rcases hl : lineValue line with cause | x
      · rw [hl] at hv
        cases hk : cause.kind? <;> simp only [hk] at hv <;> cases hv
      · exact ⟨x, rfl⟩
    obtain ⟨x, hx⟩ := hl
    have hne : tokensOf line ≠ [] := by
      intro hnil
      simp only [lineValue, tokenize, hnil] at hx
      cases hx
    rw [lineValue_eq hne] at hx
    rcases hts : toPostfix (tokensOf line) with cause | ts
    · rw [hts] at hx; cases hx
    · rw [hts] at hx
      have hall := (nesting_of_toPostfix hts).2
      obtain ⟨t, rfl, hval, hfin⟩ := (postfixValue_eq_ok_iff Numeral.ofText?_string hall).mp hx
      exact ⟨t, x, rfl, hval, hfin⟩
  · obtain ⟨outcome, hcalc, hs⟩ := calculate_of_tree Numeral.ofText?_string hp ht
    rw [hx] at hs
    cases hs with
    | overflow hinf => rw [hfin] at hinf; cases hinf
    | value _ hv => exact ⟨_, hcalc⟩

/-- **The lines with a value that are no sentences:** operands and operators do not alternate, but
the postfix order is that of a tree all the same. -/
theorem value_without_sentence_iff (hp : 0 ≤ settings.displayDecimals) (line : String) :
    ((∃ v, calculate settings line = .ok (.value v)) ∧ ¬ IsSentence (tokensOf line)) ↔
      alternates true (tokensOf line) = false ∧
        ∃ (t : Tree Numeral) (x : Binary64),
          toPostfix (tokensOf line) = .ok (t.postorder Numeral.string) ∧
            t.value? Numeral.value = some x ∧ x.isFinite = true := by
  rw [exists_value_iff hp line]
  refine ⟨fun ⟨htree, hno⟩ => ⟨?_, htree⟩, fun ⟨ha, htree⟩ => ⟨htree, fun h => ?_⟩⟩
  · obtain ⟨t, x, ht, -⟩ := htree
    rw [← Bool.not_eq_true]
    intro ha
    exact hno (isSentence_of_alternates (isLineToken_of_mem_tokensOf line) ha
      (nesting_of_toPostfix ht).1)
  · rw [h.alternates] at ha
    cases ha

/-- The sum of `1` and `2`. -/
def smallSum : Tree Numeral :=
  .node .add (.number (.digit 1))
    (.number (.digit 2))

theorem tokensOf_smallSum : tokensOf "1 2 +" = smallSum.postorder Numeral.string := by
  have h1 : lexemes "1 2 +".toList = ['1'] :: lexemes " 2 +".toList :=
    lexemes_numeral (.digit 1) (by intro c hc; cases hc; decide)
  have h2 : lexemes "2 +".toList = ['2'] :: lexemes " +".toList :=
    lexemes_numeral (.digit 2) (by intro c hc; cases hc; decide)
  have hgap : ∀ c ∈ [' '], isSkipped c = true := forall_of_all rfl
  have h3 : lexemes " 2 +".toList = lexemes "2 +".toList := lexemes_gap hgap _
  have h4 : lexemes " +".toList = ['+'] :: lexemes [] :=
    (lexemes_gap hgap ['+']).trans (lexemes_symbol (by decide) [])
  have hline : withLeadingZero "1 2 +".toList = "1 2 +".toList := rfl
  rw [tokensOf, hline, h1, h3, h2, h4, lexemes]
  rfl

theorem exists_tree_smallSum : alternates true (tokensOf "1 2 +") = false ∧
    ∃ (t : Tree Numeral) (x : Binary64),
      toPostfix (tokensOf "1 2 +") = .ok (t.postorder Numeral.string) ∧
        t.value? Numeral.value = some x ∧ x.isFinite = true := by
  rw [tokensOf_smallSum]
  exact ⟨rfl, smallSum, _, rfl, rfl, by decide +kernel⟩

theorem value_without_sentence_smallSum :
    0 ≤ Settings.standard.displayDecimals ∧
      (∃ v, calculate .standard "1 2 +" = .ok (.value v)) ∧ ¬ IsSentence (tokensOf "1 2 +") :=
  ⟨by decide, (value_without_sentence_iff (by decide) "1 2 +").mpr exists_tree_smallSum⟩

/-- Having a value is not enough to be a sentence. -/
theorem not_isSentence_of_value :
    ¬ ∀ (line : String) (v : Binary64), calculate .standard line = .ok (.value v) →
      IsSentence (tokensOf line) := by
  intro h
  obtain ⟨ha, htree⟩ := exists_tree_smallSum
  have hiff := @exists_value_iff .standard (by decide) "1 2 +"
  obtain ⟨v, hv⟩ := hiff.mpr htree
  have hsentence := h "1 2 +" v hv
  rw [hsentence.alternates] at ha
  cases ha

end PocketCalculator
