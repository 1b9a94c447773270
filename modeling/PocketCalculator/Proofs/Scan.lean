import PocketCalculator.Proofs.Alternation
import PocketCalculator.Proofs.Numeral

/-! # The tokens of a written line

Tokens may be written with any skipped characters before, between and behind them (`Written`). If
operands and operators alternate, no two numerals meet, and the scanner finds exactly these tokens
(`map_ofText_lexemes`). Whatever the line is, its tokens are numerals, operators and parentheses
(`isLineToken_of_mem_tokensOf`). -/

namespace PocketCalculator

/-- A character that is no part of any token. -/
def isSkipped (c : Char) : Bool := !isSymbol c && !c.isDigit && c != '.'

/-- **Texts of tokens:** the tokens in their order, with skipped characters around them. -/
inductive Written : List Token → List Char → Prop where
  | done {gap : List Char} (hg : ∀ c ∈ gap, isSkipped c = true) : Written [] gap
  | token {gap rest : List Char} {t : Token} {ts : List Token}
      (hg : ∀ c ∈ gap, isSkipped c = true) (h : Written ts rest) :
      Written (t :: ts) (gap ++ (t.text.toList ++ rest))

theorem Written.nil : Written [] [] := .done (by simp)

theorem Written.cons {t : Token} {ts : List Token} {rest : List Char} (h : Written ts rest) :
    Written (t :: ts) (t.text.toList ++ rest) :=
  have hnone : ∀ c ∈ [], isSkipped c = true := by simp
  .token hnone h

/-! ### One token -/

theorem isDigit_of_isSymbol {c : Char} (h : isSymbol c = true) : c.isDigit = false ∧ c ≠ '.' := by
  simp only [isSymbol, Bool.or_eq_true, decide_eq_true_eq] at h
  rcases h with ((((rfl | rfl) | rfl) | rfl) | rfl) | rfl <;> decide

theorem isDigit_of_isSkipped {c : Char} (h : isSkipped c = true) :
    c.isDigit = false ∧ c ≠ '.' := by
  simp only [isSkipped, Bool.and_eq_true, Bool.not_eq_true', bne_iff_ne] at h
  exact ⟨h.1.2, h.2⟩

theorem lexemes_symbol {c : Char} (h : isSymbol c = true) (cs : List Char) :
    lexemes (c :: cs) = [c] :: lexemes cs := by
  rw [lexemes, if_pos h]

theorem lexemes_skipped {c : Char} (h : isSkipped c = true) (cs : List Char) :
    lexemes (c :: cs) = lexemes cs := by
  obtain ⟨hd, hp⟩ := isDigit_of_isSkipped h
  have hs : isSymbol c = false := by
    simp only [isSkipped, Bool.and_eq_true, Bool.not_eq_true'] at h
    exact h.1.1
  have hn : numeralPrefix (c :: cs) = [] := by
    have ht : (c :: cs).takeWhile Char.isDigit = [] := takeWhile_of_head (by simpa using hd)
    have hw : (c :: cs).dropWhile Char.isDigit = c :: cs := dropWhile_of_head (by simpa using hd)
    unfold numeralPrefix
    simp only [ht, hw]
    split
    · next rest heq => exact absurd (List.cons.inj heq).1 hp
    · rfl
  rw [lexemes, if_neg (by simp [hs]), hn]

/-- A point that no digit follows is skipped. -/
theorem lexemes_point {rest : List Char} (h : ∀ c ∈ rest.head?, c.isDigit = false) :
    lexemes ('.' :: rest) = lexemes rest := by
  have hnone : numeralPrefix ('.' :: rest) = [] := by
    have hwhole : ('.' :: rest).takeWhile Char.isDigit = [] := takeWhile_of_head (by simp)
    have hbehind : ('.' :: rest).dropWhile Char.isDigit = '.' :: rest :=
      dropWhile_of_head (by simp)
    unfold numeralPrefix
    simp only [hwhole, hbehind, takeWhile_of_head h, and_self, if_true]
  rw [lexemes, if_neg (by decide), hnone]

theorem lexemes_gap {gap : List Char} (h : ∀ c ∈ gap, isSkipped c = true) (cs : List Char) :
    lexemes (gap ++ cs) = lexemes cs := by
  induction gap with
  | nil => rfl
  | cons c gap ih =>
    rw [List.cons_append, lexemes_skipped (h c (by simp)),
      ih fun c hc => h c (List.mem_cons_of_mem _ hc)]

/-- **A numeral is one lexeme** if what follows does not prolong it. -/
theorem lexemes_numeral (n : Numeral) {rest : List Char} (h : n.EndsBefore rest) :
    lexemes (n.text ++ rest) = n.text :: lexemes rest := by
  have hp := n.numeralPrefix_text_append h
  have hs := n.forall_mem_text (P := fun c => isSymbol c = false) (by decide)
  obtain ⟨d, ds, hd⟩ := List.exists_cons_of_ne_nil n.text_ne_nil
  rw [hd] at hp hs ⊢
  rw [List.cons_append] at hp ⊢
  rw [lexemes, if_neg (by simp [hs d]), hp]
  simp

/-! ### The token of a text -/

@[simp] theorem ofText_symbol (op : Operator) : Token.ofText op.text = op.token := by
  cases op <;> rfl

theorem ofText_numeral (n : Numeral) : Token.ofText n.string = .number n.string := by
  have hs : ∀ c ∈ n.string.toList, isSymbol c = false := by
    rw [n.toList_string]
    exact n.forall_mem_text (by decide)
  have hne : ∀ (s : String) (c : Char), c ∈ s.toList → isSymbol c = true → n.string ≠ s := by
    rintro s c hc hcs rfl
    rw [hs c hc] at hcs
    cases hcs
  have hop : n.string ∉ Token.operators := by
    intro hmem
    obtain ⟨op, hop⟩ := Operator.exists_of_mem_operators hmem
    exact hne op.text op.symbol (by simp [op.toList_text]) op.isSymbol_symbol hop.symm
  rw [Token.ofText, if_neg hop, if_neg (hne "(" '(' (by decide) (by decide)),
    if_neg (hne ")" ')' (by decide) (by decide))]
  rfl

/-! ### All tokens of a line -/

theorem mem_lexemes (cs : List Char) : ∀ l ∈ lexemes cs,
    (∃ c, isSymbol c = true ∧ l = [c]) ∨ ∃ n : Numeral, l = n.text := by
  fun_induction lexemes cs with
  | case1 => simp
  | case2 c rest hc ih =>
    intro l hl
    rcases List.mem_cons.mp hl with rfl | hl
    · exact Or.inl ⟨c, hc, rfl⟩
    · exact ih l hl
  | case3 c rest hc hn ih => exact ih
  | case4 c rest hc d ds hn ih =>
    intro l hl
    rcases List.mem_cons.mp hl with rfl | hl
    · obtain ⟨n, hn'⟩ := Numeral.exists_numeral (show numeralPrefix (c :: rest) ≠ [] by simp [hn])
      exact Or.inr ⟨n, by rw [← hn, hn']⟩
    · exact ih l hl

/-- **The tokens of a line** are numerals, operators and parentheses. -/
theorem isLineToken_of_mem_tokensOf (line : String) :
    ∀ t ∈ tokensOf line, IsLineToken Numeral.string t := by
  intro t ht
  obtain ⟨l, hl, rfl⟩ := List.mem_map.mp ht
  rcases mem_lexemes _ l hl with ⟨c, hc, rfl⟩ | ⟨n, rfl⟩
  · simp only [isSymbol, Bool.or_eq_true, decide_eq_true_eq] at hc
    rcases hc with ((((rfl | rfl) | rfl) | rfl) | rfl) | rfl
    · exact .operator .add
    · exact .operator .subtract
    · exact .operator .multiply
    · exact .operator .divide
    · exact .opening
    · exact .closing
  · show IsLineToken _ (Token.ofText n.string)
    rw [ofText_numeral]
    exact .number n

/-! ### Written tokens are found -/

theorem Written.forall_head {P : Char → Prop} {ts : List Token} {cs : List Char}
    (h : Written ts cs) (hskip : ∀ c, isSkipped c = true → P c)
    (htoken : ∀ t ∈ ts.head?, ∃ c rest, t.text.toList = c :: rest ∧ P c) :
    ∀ c ∈ cs.head?, P c := by
  intro c hc
  cases h with
  | done hg => exact hskip c (hg c (List.mem_of_mem_head? hc))
  | @token gap rest t ts hg h =>
    rcases gap with _ | ⟨d, gap⟩
    · obtain ⟨d, ds, htext, hd⟩ := htoken t rfl
      rw [List.nil_append, htext] at hc
      cases hc
      exact hd
    · cases hc
      exact hskip c (hg c (by simp))

theorem Written.head_of_alternates {ts : List Token} {cs : List Char} (h : Written ts cs)
    (hts : ∀ t ∈ ts, IsLineToken Numeral.string t) (ha : alternates false ts = true) :
    ∀ c ∈ cs.head?, c.isDigit = false ∧ c ≠ '.' := by
  refine h.forall_head (fun c => isDigit_of_isSkipped) fun t ht => ?_
  obtain ⟨ts, rfl⟩ := List.head?_eq_some_iff.mp ht
  cases hts t (by simp) with
  | number n => cases ha
  | opening => cases ha
  | operator op =>
    exact ⟨op.symbol, [], op.toList_text, isDigit_of_isSymbol op.isSymbol_symbol⟩
  | closing => exact ⟨')', [], rfl, by decide⟩

/-- **The scanner finds written tokens.** -/
theorem map_ofText_lexemes {ts : List Token} {cs : List Char} (h : Written ts cs)
    (hts : ∀ t ∈ ts, IsLineToken Numeral.string t) {operand : Bool}
    (ha : alternates operand ts = true) :
    (lexemes cs).map (fun text => Token.ofText (String.ofList text)) = ts := by
  induction h generalizing operand with
  | @done gap hg =>
    have := lexemes_gap hg []
    rw [List.append_nil] at this
    rw [this]; simp [lexemes]
  | @token gap rest t ts hg h ih =>
    have hrest : ∀ t ∈ ts, IsLineToken Numeral.string t := fun t ht =>
      hts t (List.mem_cons_of_mem _ ht)
    rw [lexemes_gap hg]
    cases hts t (by simp) with
    | number n =>
      obtain ⟨rfl, ha⟩ := alternates_number_iff.mp ha
      -- behind an operand comes no operand, so nothing prolongs the numeral
      have hend : n.EndsBefore rest := fun c hc =>
        (h.head_of_alternates hrest ha c hc).imp_right fun hne _ => hne
      have ht : (Token.number n.string).text.toList = n.text := n.toList_string
      rw [ht, lexemes_numeral n hend, List.map_cons, ih hrest ha]
      exact congrArg (· :: ts) (ofText_numeral n)
    | operator op =>
      obtain ⟨rfl, ha⟩ := alternates_operator_iff.mp ha
      rw [Operator.text_token, op.toList_text, List.singleton_append,
        lexemes_symbol op.isSymbol_symbol, List.map_cons, ih hrest ha]
      exact congrArg (· :: ts) (ofText_symbol op)
    | opening =>
      obtain ⟨rfl, ha⟩ := alternates_opening_iff.mp ha
      show (lexemes ('(' :: rest)).map _ = _
      rw [lexemes_symbol (by decide), List.map_cons, ih hrest ha]
      rfl
    | closing =>
      obtain ⟨rfl, ha⟩ := alternates_closing_iff.mp ha
      show (lexemes (')' :: rest)).map _ = _
      rw [lexemes_symbol (by decide), List.map_cons, ih hrest ha]
      rfl

end PocketCalculator
