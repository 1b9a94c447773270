import PocketCalculator.Proofs.Layout
import PocketCalculator.Proofs.Outcome

/-! # What the characters of a line decide

By which kind a line fails can be told from its characters, up to the parentheses. Without a digit
or a symbol it has no tokens. The parentheses of its tokens are those of its characters
(`nesting?_tokensOf`), so it is unbalanced just if these are not in pairs: one too many is closed
(`ClosesTooMany`), or one is left open. Any other line has a value or fails where its operators are
applied.

* `HasContent`: a digit or a symbol is among the characters.
* `depth?`: the number of parentheses that a text leaves open, unless it closes one too many.
* `Balanced`: the parentheses are in pairs.
* `DecidedByText`: what all this says about the outcome. -/

namespace PocketCalculator

/-! ### Parentheses of a text -/

/-- Some part of the text, from its beginning on, closes more parentheses than it opens. -/
def ClosesTooMany (cs : List Char) : Prop :=
  ∃ front, front <+: cs ∧ front.count '(' < front.count ')'

/-- The parentheses of a text are in pairs. -/
def Balanced (cs : List Char) : Prop := ¬ ClosesTooMany cs ∧ cs.count '(' = cs.count ')'

/-- The number of parentheses open behind a text, unless one too many is closed. -/
def depth? : Nat → List Char → Option Nat
  | depth, [] => some depth
  | depth, c :: cs =>
    if c = '(' then depth? (depth + 1) cs
    else if c = ')' then
      match depth with
      | 0 => none
      | depth + 1 => depth? depth cs
    else depth? depth cs

section Depth
variable (depth : Nat) (cs : List Char)

theorem depth?_opening : depth? depth ('(' :: cs) = depth? (depth + 1) cs := rfl

theorem depth?_closing_zero : depth? 0 (')' :: cs) = none := rfl

theorem depth?_closing_succ : depth? (depth + 1) (')' :: cs) = depth? depth cs := rfl

theorem depth?_cons {c : Char} (ho : c ≠ '(') (hc : c ≠ ')') :
    depth? depth (c :: cs) = depth? depth cs := by
  simp only [depth?, if_neg ho, if_neg hc]

end Depth

theorem depth?_append {cs : List Char} (h : ∀ c ∈ cs, c ≠ '(' ∧ c ≠ ')') (depth : Nat)
    (rest : List Char) : depth? depth (cs ++ rest) = depth? depth rest := by
  induction cs with
  | nil => rfl
  | cons c cs ih =>
    obtain ⟨ho, hc⟩ := h c (by simp)
    rw [List.cons_append, depth?_cons _ _ ho hc, ih fun c hc => h c (List.mem_cons_of_mem _ hc)]

theorem exists_prefix_cons_iff {P : List Char → Prop} (h : ¬ P []) {c : Char} {cs : List Char} :
    (∃ front, front <+: c :: cs ∧ P front) ↔ ∃ front, front <+: cs ∧ P (c :: front) := by
  constructor
  · rintro ⟨front, hfront, hP⟩
    rcases List.prefix_cons_iff.mp hfront with rfl | ⟨front, rfl, hrest⟩
    · exact absurd hP h
    · exact ⟨front, hrest, hP⟩
  · rintro ⟨front, hfront, hP⟩
    exact ⟨c :: front, List.prefix_cons_iff.mpr (Or.inr ⟨front, rfl, hfront⟩), hP⟩

/-- **One too many is closed** just if some front of the text closes too many. -/
theorem depth?_eq_none_iff : ∀ {cs : List Char} {depth : Nat}, depth? depth cs = none ↔
    ∃ front, front <+: cs ∧ depth + front.count '(' < front.count ')'
  | [], depth => by simp [depth?]
  | c :: cs, depth => by
    rw [exists_prefix_cons_iff (by simp)]
    by_cases ho : c = '('
    · subst ho
      rw [depth?_opening, depth?_eq_none_iff]
      simp [Nat.add_assoc, Nat.add_comm 1]
    by_cases hc : c = ')'
    · subst hc
      rcases depth with _ | depth
      · exact iff_of_true (depth?_closing_zero cs) ⟨[], List.nil_prefix, by decide⟩
      · rw [depth?_closing_succ, depth?_eq_none_iff]
        simp [Nat.add_right_comm]
    · rw [depth?_cons _ _ ho hc, depth?_eq_none_iff]
      simp [ho, hc]

theorem count_of_depth? : ∀ {cs : List Char} {depth left : Nat}, depth? depth cs = some left →
    depth + cs.count '(' = left + cs.count ')'
  | [], depth, left, h => by
    cases h
    rfl
  | c :: cs, depth, left, h => by
    by_cases ho : c = '('
    · subst ho
      rw [depth?_opening] at h
      have ih := count_of_depth? h
      rw [List.count_cons_self, List.count_cons_of_ne (by decide)]
      omega
    by_cases hc : c = ')'
    · subst hc
      rcases depth with _ | depth
      · cases h
      · rw [depth?_closing_succ] at h
        have ih := count_of_depth? h
        rw [List.count_cons_self, List.count_cons_of_ne (by decide)]
        omega
    · rw [depth?_cons _ _ ho hc] at h
      rw [List.count_cons_of_ne ho, List.count_cons_of_ne hc]
      exact count_of_depth? h

/-! ### Parentheses of a line -/

theorem ne_parentheses_of_isSymbol {c : Char} (h : isSymbol c = false) : c ≠ '(' ∧ c ≠ ')' := by
  refine ⟨?_, ?_⟩ <;> rintro rfl <;> exact absurd h (by decide)

theorem nesting?_token (l : Lexeme) {ts : List Token} {cs : List Char}
    (h : ∀ depth, nesting? depth ts = depth? depth cs) (depth : Nat) :
    nesting? depth (l.token :: ts) = depth? depth (l.text ++ cs) := by
  cases l with
  | symbol c hc =>
    rcases isSymbol_cases hc with ⟨op, rfl⟩ | rfl | rfl
    · cases op <;> exact h depth
    · exact h (depth + 1)
    · rcases depth with _ | depth
      · rfl
      · exact h depth
  | numeral n =>
    have hn : ∀ c ∈ n.text, c ≠ '(' ∧ c ≠ ')' := n.forall_mem_text (by decide)
    rw [Lexeme.text, depth?_append hn, ← h]
    rfl

/-- **The parentheses of the tokens** are those of the text. -/
theorem nesting?_lexemes : ∀ {d : Layout}, d.IsGreedy → ∀ depth : Nat,
    nesting? depth (d.lexemes.map Lexeme.token) = depth? depth d.text
  | .last gap, h, depth => by
    have hno := fun c hc => ne_parentheses_of_isSymbol (IsGap.forall_mem h c hc).2
    have hgap := depth?_append hno depth []
    rw [List.append_nil] at hgap
    rw [Layout.text, hgap]
    rfl
  | .lexeme gap l rest, ⟨hgap, _, hrest⟩, depth => by
    have hno := fun c hc => ne_parentheses_of_isSymbol (hgap.forall_mem c hc).2
    rw [Layout.text, depth?_append hno]
    exact nesting?_token l (nesting?_lexemes hrest) depth

/-! ### Tokens of a line -/

/-- A digit or a symbol is among the characters. -/
def HasContent (cs : List Char) : Prop := ∃ c ∈ cs, c.isDigit = true ∨ isSymbol c = true

theorem Lexeme.hasContent_text (l : Lexeme) : HasContent l.text := by
  cases l with
  | symbol c hc => exact ⟨c, List.mem_singleton_self c, Or.inr hc⟩
  | numeral n =>
    obtain ⟨d, ds, hd, htext | htext⟩ := n.text_cases
    · exact ⟨d, by simp [text, htext], Or.inl hd⟩
    · exact ⟨d, by simp [text, htext], Or.inl hd⟩

theorem lexemes_ne_nil_iff : ∀ {d : Layout}, d.IsGreedy → (d.lexemes ≠ [] ↔ HasContent d.text)
  | .last gap, h => by
    refine iff_of_false (fun hne => hne rfl) ?_
    rintro ⟨c, hc, hor⟩
    obtain ⟨hd, hs⟩ := IsGap.forall_mem h c hc
    rw [hd, hs] at hor
    simp at hor
  | .lexeme gap l rest, _ => by
    obtain ⟨c, hc, hor⟩ := l.hasContent_text
    exact iff_of_true (List.cons_ne_nil _ _) ⟨c, by simp [Layout.text, hc], hor⟩

theorem ClosesTooMany.hasContent {cs : List Char} (h : ClosesTooMany cs) : HasContent cs := by
  obtain ⟨front, hfront, hlt⟩ := h
  have hle := hfront.sublist.count_le ')'
  have hpos : 0 < cs.count ')' := by omega
  exact ⟨')', List.count_pos_iff.mp hpos, Or.inr (by decide)⟩

theorem withLeadingZero_cases (cs : List Char) :
    (HasContent (withLeadingZero cs) ↔ HasContent cs) ∧
      ∀ depth, depth? depth (withLeadingZero cs) = depth? depth cs := by
  rw [withLeadingZero_eq_ite]
  split
  · next hsign =>
    have hcs : HasContent cs := by
      rcases hsign with h | h
      · exact ⟨'+', List.mem_of_head? h, Or.inr (by decide)⟩
      · exact ⟨'-', List.mem_of_head? h, Or.inr (by decide)⟩
    exact ⟨iff_of_true ⟨'0', by simp, Or.inl (by decide)⟩ hcs, fun depth => rfl⟩
  · exact ⟨Iff.rfl, fun _ => rfl⟩

/-- **The tokens of a line and its characters:** there are tokens just if there is a digit or a
symbol, and they nest as the characters do. -/
theorem tokensOf_cases (line : String) :
    (tokensOf line ≠ [] ↔ HasContent line.toList) ∧
      nesting? 0 (tokensOf line) = depth? 0 line.toList := by
  obtain ⟨hhas, hdepth⟩ := withLeadingZero_cases line.toList
  obtain ⟨d, htext, hd⟩ := Layout.exists_isGreedy (withLeadingZero line.toList)
  rw [tokensOf_of_isGreedy hd htext, nesting?_lexemes hd, htext, hdepth, ← hhas, ← htext,
    ← lexemes_ne_nil_iff hd]
  simp

/-! ### The outcome -/

/-- A value, or a failure where operators are applied. -/
def LeftToOperators (outcome : Outcome) : Prop :=
  (∃ v, outcome = .value v) ∨ ∃ kind cause, outcome = .failed kind cause ∧
    (kind = .malformedExpression ∨ kind = .divisionByZero ∨ kind = .numericOverflow)

/-- **What the characters of a line say about its outcome.** -/
structure DecidedByText (line : String) (outcome : Outcome) : Prop where
  /-- It is invalid just if there is neither a digit nor a symbol. -/
  invalid_iff : outcome.kind? = some .invalidExpression ↔ ¬ HasContent line.toList
  /-- It is unbalanced just if there is one, and the parentheses are not in pairs. -/
  unbalanced_iff : outcome.kind? = some .unbalancedParentheses ↔
    HasContent line.toList ∧ ¬ Balanced line.toList
  /-- One parenthesis too many is closed. -/
  closing_iff : ∀ cause, outcome = .failed .unbalancedParentheses cause →
    (cause.message = "Closing parenthesis without opening" ↔ ClosesTooMany line.toList)
  /-- A parenthesis is left open. -/
  opening_iff : ∀ cause, outcome = .failed .unbalancedParentheses cause →
    (cause.message = "Opening parenthesis never closed" ↔ ¬ ClosesTooMany line.toList)
  /-- Everything else is left to the operators. -/
  otherwise : HasContent line.toList → Balanced line.toList → LeftToOperators outcome

namespace DecidedByText

variable {line : String}

theorem noTokens (h : ¬ HasContent line.toList) :
    DecidedByText line (.failed .invalidExpression (.noTokens line)) where
  invalid_iff := iff_of_true rfl h
  unbalanced_iff := iff_of_false (by simp [Outcome.kind?]) fun hor => h hor.1
  closing_iff := by rintro cause ⟨⟩
  opening_iff := by rintro cause ⟨⟩
  otherwise := fun hhas => absurd hhas h

theorem closing (h : ClosesTooMany line.toList) :
    DecidedByText line (.failed .unbalancedParentheses .closingWithoutOpening) where
  invalid_iff := iff_of_false (by simp [Outcome.kind?]) fun hno => hno h.hasContent
  unbalanced_iff := iff_of_true rfl ⟨h.hasContent, fun hb => hb.1 h⟩
  closing_iff := by rintro cause ⟨⟩; exact iff_of_true rfl h
  opening_iff := by rintro cause ⟨⟩; exact iff_of_false (by decide) fun hno => hno h
  otherwise := fun _ hb => absurd h hb.1

theorem opening (hhas : HasContent line.toList) (h : ¬ ClosesTooMany line.toList)
    (hcount : line.toList.count '(' ≠ line.toList.count ')') :
    DecidedByText line (.failed .unbalancedParentheses .openingNeverClosed) where
  invalid_iff := iff_of_false (by simp [Outcome.kind?]) fun hno => hno hhas
  unbalanced_iff := iff_of_true rfl ⟨hhas, fun hb => hcount hb.2⟩
  closing_iff := by rintro cause ⟨⟩; exact iff_of_false (by decide) h
  opening_iff := by rintro cause ⟨⟩; exact iff_of_true rfl h
  otherwise := fun _ hb => absurd hb.2 hcount

theorem balanced {outcome : Outcome} (hhas : HasContent line.toList) (hb : Balanced line.toList)
    (h : LeftToOperators outcome) : DecidedByText line outcome := by
  have hkind : outcome.kind? ≠ some .invalidExpression ∧
      outcome.kind? ≠ some .unbalancedParentheses := by
    rcases h with ⟨v, rfl⟩ | ⟨kind, cause, rfl, rfl | rfl | rfl⟩ <;> simp [Outcome.kind?]
  have hcause : ∀ cause, outcome ≠ .failed .unbalancedParentheses cause := by
    rintro cause rfl
    exact hkind.2 rfl
  exact {
    invalid_iff := iff_of_false hkind.1 fun hno => hno hhas
    unbalanced_iff := iff_of_false hkind.2 fun hor => hor.2 hb
    closing_iff := fun cause hc => absurd hc (hcause cause)
    opening_iff := fun cause hc => absurd hc (hcause cause)
    otherwise := fun _ _ => h }

end DecidedByText

/-- Where there is a postfix order, the operators decide. -/
theorem exists_calculate_of_postfix {settings : Settings} (hp : 0 ≤ settings.displayDecimals)
    {line : String} {out : List Token} (h : lineValue line = postfixValue out)
    (hout : ∀ t ∈ out, IsPostfixToken Numeral.string t) :
    ∃ outcome, calculate settings line = .ok outcome ∧ LeftToOperators outcome := by
  rcases postfixValue_cases Numeral.ofText?_string hout with
    ⟨x, hx, hfin⟩ | ⟨cause, kind, hcause, hk, hmem⟩
  · obtain ⟨v, hv, -, -⟩ := exists_calculate_of_finite hp (h.trans hx) hfin
    exact ⟨.value v, hv, Or.inl ⟨v, rfl⟩⟩
  · exact ⟨_, calculate_of_failure (h.trans hcause) hk, Or.inr ⟨kind, cause, rfl, hmem⟩⟩

/-- **The outcome of a line, as far as its characters decide it.** -/
theorem calculate_decidedByText {settings : Settings} (hp : 0 ≤ settings.displayDecimals)
    (line : String) : ∃ outcome, calculate settings line = .ok outcome ∧
      DecidedByText line outcome := by
  obtain ⟨htokens, hnesting⟩ := tokensOf_cases line
  by_cases hhas : HasContent line.toList
  · have hvalue := lineValue_eq (htokens.mpr hhas)
    have hdecides := toPostfix_nesting Numeral.string (isLineToken_of_mem_tokensOf line)
    have hcloses : depth? 0 line.toList = none ↔ ClosesTooMany line.toList := by
      simp only [depth?_eq_none_iff, Nat.zero_add, ClosesTooMany]
    rw [hnesting] at hdecides
    match hdepth : depth? 0 line.toList, hdecides with
    | none, hresult =>
      rw [hresult] at hvalue
      exact ⟨_, calculate_of_failure hvalue rfl, .closing (hcloses.mp hdepth)⟩
    | some (left + 1), hresult =>
      have hno : ¬ ClosesTooMany line.toList := by simp [← hcloses, hdepth]
      have hcount := count_of_depth? hdepth
      rw [hresult] at hvalue
      exact ⟨_, calculate_of_failure hvalue rfl, .opening hhas hno (by omega)⟩
    | some 0, ⟨out, hresult, hall⟩ =>
      have hno : ¬ ClosesTooMany line.toList := by simp [← hcloses, hdepth]
      have hcount := count_of_depth? hdepth
      rw [hresult] at hvalue
      obtain ⟨outcome, hcalculate, hcases⟩ := exists_calculate_of_postfix hp hvalue hall
      exact ⟨outcome, hcalculate, .balanced hhas ⟨hno, by omega⟩ hcases⟩
  · have hnil : tokensOf line = [] := Decidable.not_not.mp fun hne => hhas (htokens.mp hne)
    exact ⟨_, calculate_of_failure (lineValue_of_nil hnil) rfl, .noTokens hhas⟩

theorem calculate_decidedByText_crossed :
    0 ≤ Settings.standard.displayDecimals ∧
      ∃ outcome, calculate .standard "2)+(1" = .ok outcome ∧ DecidedByText "2)+(1" outcome :=
  ⟨by decide, calculate_decidedByText (by decide) "2)+(1"⟩

end PocketCalculator
