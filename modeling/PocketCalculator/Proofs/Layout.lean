import PocketCalculator.Proofs.Scan

/-! # How a line is laid out in tokens

A layout of a text takes it apart into lexemes, which are the texts of tokens, and gaps before,
between and behind them. It is *greedy* if no numeral could be longer and nothing in a gap begins a
lexeme: no digit and no symbol, and no point with a digit behind it. Every text has a greedy layout
(`Layout.exists_isGreedy`) and only one (`Layout.eq_of_text_eq`), and the scanner finds its lexemes
(`Layout.lexemes_text`).

* `Lexeme`: a symbol or a numeral, with its text and its token.
* `IsGap`: the characters of a gap, given what follows it.
* `Layout`: gaps and lexemes in turn. -/

namespace PocketCalculator

/-! ### Lexemes -/

theorem isSymbol_cases {c : Char} (h : isSymbol c = true) :
    (∃ op : Operator, c = op.symbol) ∨ c = '(' ∨ c = ')' := by
  simp only [isSymbol, Bool.or_eq_true, decide_eq_true_eq] at h
  rcases h with ((((rfl | rfl) | rfl) | rfl) | h) | h
  · exact Or.inl ⟨.add, rfl⟩
  · exact Or.inl ⟨.subtract, rfl⟩
  · exact Or.inl ⟨.multiply, rfl⟩
  · exact Or.inl ⟨.divide, rfl⟩
  · exact Or.inr (Or.inl h)
  · exact Or.inr (Or.inr h)

/-- What the texts of tokens are: symbols and numerals. -/
inductive Lexeme where
  | symbol (c : Char) (h : isSymbol c = true)
  | numeral (n : Numeral)

namespace Lexeme

/-- The characters of a lexeme. -/
def text : Lexeme → List Char
  | symbol c _ => [c]
  | numeral n => n.text

/-- What a lexeme stands for. -/
def kind : Lexeme → TokenKind
  | symbol c _ => if c = '(' then .leftParen else if c = ')' then .rightParen else .operator
  | numeral _ => .number

/-- The token of a lexeme. -/
def token (l : Lexeme) : Token := ⟨l.kind, String.ofList l.text⟩

/-- What stands behind a lexeme does not prolong it. -/
def EndsBefore : Lexeme → List Char → Prop
  | symbol .., _ => True
  | numeral n, rest => n.EndsBefore rest

theorem ofText_text (l : Lexeme) : Token.ofText (String.ofList l.text) = l.token := by
  cases l with
  | symbol c h =>
    rcases isSymbol_cases h with ⟨op, rfl⟩ | rfl | rfl
    · cases op <;> rfl
    · rfl
    · rfl
  | numeral n => exact ofText_numeral n

end Lexeme

theorem Numeral.whole_text (n : Numeral) :
    n.text.takeWhile Char.isDigit = n.whole ∧
      n.text.dropWhile Char.isDigit = (n.fraction.map ('.' :: ·)).getD [] := by
  have hw := n.whole_digits
  unfold text
  rcases n.fraction with _ | f
  · have ht := takeWhile_digits (r := []) hw (by simp)
    have hd := dropWhile_digits (r := []) hw (by simp)
    rw [List.append_nil] at ht hd
    exact ⟨ht, hd⟩
  · have hp : ∀ c ∈ ('.' :: f).head?, c.isDigit = false := by simp
    exact ⟨takeWhile_digits hw hp, dropWhile_digits hw hp⟩

theorem Numeral.text_injective {n n' : Numeral} (h : n.text = n'.text) : n = n' := by
  obtain ⟨hwhole, hbehind⟩ := n.whole_text
  obtain ⟨hwhole', hbehind'⟩ := n'.whole_text
  rw [h] at hwhole hbehind
  have hfraction : (n.fraction.map ('.' :: ·)).getD [] = (n'.fraction.map ('.' :: ·)).getD [] :=
    hbehind.symm.trans hbehind'
  obtain ⟨whole, fraction, _, _, _⟩ := n
  obtain ⟨whole', fraction', _, _, _⟩ := n'
  obtain rfl : whole = whole' := hwhole.symm.trans hwhole'
  obtain rfl : fraction = fraction' := by
    rcases fraction with _ | f <;> rcases fraction' with _ | f' <;> simp_all
  rfl

theorem Numeral.text_ne_symbol (n : Numeral) {c : Char} (hc : isSymbol c = true) :
    n.text ≠ [c] := by
  intro h
  have hs := n.forall_mem_text (P := fun c => isSymbol c = false) (by decide) c (by simp [h])
  rw [hc] at hs
  cases hs

theorem Numeral.text_cases (n : Numeral) :
    ∃ d ds, d.isDigit = true ∧ (n.text = d :: ds ∨ n.text = '.' :: d :: ds) := by
  obtain ⟨whole, fraction, hw, hf, hd⟩ := n
  rcases whole with _ | ⟨d, ds⟩
  · -- without a digit before the point there is one behind it
    rcases fraction with _ | _ | ⟨d, ds⟩
    · simp at hd
    · simp at hd
    · exact ⟨d, ds, hf d (by simp), Or.inr rfl⟩
  · rcases fraction with _ | f
    · exact ⟨d, ds, hw d (by simp), Or.inl rfl⟩
    · exact ⟨d, ds ++ '.' :: f, hw d (by simp), Or.inl rfl⟩

namespace Lexeme

theorem text_ne_nil (l : Lexeme) : l.text ≠ [] := by
  cases l with
  | symbol => exact List.cons_ne_nil _ _
  | numeral n => exact n.text_ne_nil

theorem text_injective : ∀ {l l' : Lexeme}, l.text = l'.text → l = l'
  | symbol c _, symbol c' _, h => by
    obtain rfl : c = c' := (List.cons.inj h).1
    rfl
  | symbol c hc, numeral n, h => absurd h.symm (n.text_ne_symbol hc)
  | numeral n, symbol c hc, h => absurd h (n.text_ne_symbol hc)
  | numeral n, numeral n', h => congrArg numeral (Numeral.text_injective h)

/-- **A lexeme is found by the scanner** if what follows does not prolong it. -/
theorem lexemes_text_append (l : Lexeme) {rest : List Char} (h : l.EndsBefore rest) :
    lexemes (l.text ++ rest) = l.text :: lexemes rest := by
  cases l with
  | symbol c hc => exact lexemes_symbol hc rest
  | numeral n => exact lexemes_numeral n h

theorem append_inj {l l' : Lexeme} {rest rest' : List Char} (hl : l.EndsBefore rest)
    (hl' : l'.EndsBefore rest') (h : l.text ++ rest = l'.text ++ rest') :
    l = l' ∧ rest = rest' := by
  have hfirst := l.lexemes_text_append hl
  rw [h, l'.lexemes_text_append hl'] at hfirst
  obtain rfl := text_injective (List.cons.inj hfirst).1
  exact ⟨rfl, List.append_cancel_left h⟩

end Lexeme

/-! ### Gaps -/

/-- A gap, given what follows it: no character of it is a digit or a symbol, and no point of it has
a digit behind it. -/
def IsGap : List Char → List Char → Prop
  | [], _ => True
  | c :: gap, rest =>
    c.isDigit = false ∧ isSymbol c = false ∧
      (c = '.' → ∀ d ∈ (gap ++ rest).head?, d.isDigit = false) ∧ IsGap gap rest

theorem IsGap.forall_mem {rest : List Char} : ∀ {gap : List Char}, IsGap gap rest →
    ∀ c ∈ gap, c.isDigit = false ∧ isSymbol c = false
  | c :: gap, ⟨hd, hs, _, hgap⟩, x, hx => by
    rcases List.mem_cons.mp hx with rfl | hx
    · exact ⟨hd, hs⟩
    · exact hgap.forall_mem x hx

theorem lexemes_of_isGap {rest : List Char} : ∀ {gap : List Char}, IsGap gap rest →
    lexemes (gap ++ rest) = lexemes rest
  | [], _ => rfl
  | c :: gap, ⟨hd, hs, hp, hgap⟩ => by
    rw [List.cons_append]
    by_cases hc : c = '.'
    · subst hc
      rw [lexemes_point (hp rfl), lexemes_of_isGap hgap]
    · rw [lexemes_skipped (by simp [isSkipped, hd, hs, hc]), lexemes_of_isGap hgap]

/-- No gap stands at the front of a text. -/
def HasNoGap (cs : List Char) : Prop :=
  ∀ c gap rest, cs = c :: (gap ++ rest) → ¬ IsGap (c :: gap) rest

theorem hasNoGap_nil : HasNoGap [] := by
  intro c gap rest h
  cases h

theorem Lexeme.hasNoGap_append (l : Lexeme) (behind : List Char) :
    HasNoGap (l.text ++ behind) := by
  rintro c gap rest h ⟨hdigit, hsymbol, hpoint, -⟩
  cases l with
  | symbol c' hc' =>
    obtain rfl : c' = c := (List.cons.inj h).1
    rw [hc'] at hsymbol
    cases hsymbol
  | numeral n =>
    obtain ⟨d, ds, hd, htext | htext⟩ := n.text_cases
    · rw [text, htext] at h
      obtain rfl : d = c := (List.cons.inj h).1
      rw [hd] at hdigit
      cases hdigit
    · rw [text, htext] at h
      obtain ⟨hc, hrest⟩ := List.cons.inj h
      have hnot := hpoint hc.symm d (by rw [← hrest]; rfl)
      rw [hd] at hnot
      cases hnot

/-- A gap goes as far as it can: two gaps of a text, with no gap behind them, are the same. -/
theorem IsGap.eq_of_append_eq {rest rest' : List Char} (h : HasNoGap rest) (h' : HasNoGap rest') :
    ∀ {gap gap' : List Char}, IsGap gap rest → IsGap gap' rest' →
      gap ++ rest = gap' ++ rest' → gap = gap'
  | [], [], _, _, _ => rfl
  | [], c :: gap', _, hgap', heq => absurd hgap' (h c gap' rest' heq)
  | c :: gap, [], hgap, _, heq => absurd hgap (h' c gap rest heq.symm)
  | c :: gap, c' :: gap', ⟨_, _, _, hgap⟩, ⟨_, _, _, hgap'⟩, heq => by
    simp only [List.cons_append, List.cons.injEq] at heq
    rw [heq.1, eq_of_append_eq h h' hgap hgap' heq.2]

theorem IsGap.ne_append_lexeme {gap gap' behind : List Char} {l : Lexeme} (h : IsGap gap [])
    (h' : IsGap gap' (l.text ++ behind)) : gap ≠ gap' ++ (l.text ++ behind) := by
  intro heq
  have hrow : gap ++ [] = gap' ++ (l.text ++ behind) := by rw [List.append_nil, heq]
  obtain rfl := h.eq_of_append_eq hasNoGap_nil (l.hasNoGap_append behind) h' hrow
  have hnil : l.text ++ behind = [] := List.append_cancel_left hrow.symm
  exact l.text_ne_nil (List.append_eq_nil_iff.mp hnil).1

/-! ### Where the scanner stops -/

theorem head_of_takeWhile_eq_nil {p : Char → Bool} {cs : List Char} (h : cs.takeWhile p = []) :
    ∀ c ∈ cs.head?, p c = false := by
  intro c hc
  obtain ⟨cs, rfl⟩ := List.head?_eq_some_iff.mp hc
  cases hp : p c with
  | false => rfl
  | true => simp [hp] at h

/-- **A numeral that the scanner takes** is not prolonged by what follows. -/
theorem Numeral.endsBefore_of_numeralPrefix (n : Numeral) {rest : List Char}
    (h : numeralPrefix (n.text ++ rest) = n.text) : n.EndsBefore rest := by
  have hw := n.whole_digits
  have hf := n.fraction_digits
  have hd := n.has_digit
  unfold numeralPrefix text at h
  rcases heq : n.fraction with _ | f
  · rw [heq] at h hd
    simp only [List.takeWhile_append_of_pos hw, List.dropWhile_append_of_pos hw] at h
    split at h
    · -- a point behind the digits would belong to the numeral
      split at h
      · exact absurd h.symm (by simpa using hd)
      · have hlength := congrArg List.length h
        simp only [List.length_append, List.length_cons] at hlength
        omega
    · next hpoint =>
      have hhead := head_of_takeWhile_eq_nil (List.append_right_eq_self.mp h)
      intro c hc
      refine ⟨hhead c hc, fun _ => ?_⟩
      rintro rfl
      obtain ⟨rest, rfl⟩ := List.head?_eq_some_iff.mp hc
      exact hpoint rest (dropWhile_of_head hhead)
  · rw [heq] at h hf hd
    have hp : ∀ c ∈ ('.' :: (f ++ rest)).head?, c.isDigit = false := by simp
    have hf' : ∀ c ∈ f, c.isDigit = true := hf
    simp only [List.append_assoc, List.cons_append, takeWhile_digits hw hp,
      dropWhile_digits hw hp, List.takeWhile_append_of_pos hf'] at h
    split at h
    · simp at h
    · have hfraction := (List.cons.inj (List.append_cancel_left h)).2
      have hhead := head_of_takeWhile_eq_nil (List.append_right_eq_self.mp hfraction)
      exact fun c hc => ⟨hhead c hc, fun hnone => by rw [heq] at hnone; cases hnone⟩

theorem head_of_numeralPrefix_eq_nil {c : Char} {rest : List Char}
    (h : numeralPrefix (c :: rest) = []) :
    c.isDigit = false ∧ (c = '.' → ∀ d ∈ rest.head?, d.isDigit = false) := by
  unfold numeralPrefix at h
  split at h
  · next behind heq =>
    simp only at h
    split at h
    · next hnone =>
      have hhead := head_of_takeWhile_eq_nil hnone.1
      rw [dropWhile_of_head hhead] at heq
      obtain ⟨rfl, rfl⟩ := List.cons.inj heq
      exact ⟨rfl, fun _ => head_of_takeWhile_eq_nil hnone.2⟩
    · simp at h
  · next hpoint =>
    have hhead := head_of_takeWhile_eq_nil h
    refine ⟨hhead c rfl, ?_⟩
    rintro rfl
    exact absurd (dropWhile_of_head hhead) (hpoint rest)

/-! ### Layouts -/

/-- **A layout of a text:** a gap, and behind it a lexeme and a layout of the rest, unless the text
ends. -/
inductive Layout where
  | last (gap : List Char)
  | lexeme (gap : List Char) (l : Lexeme) (rest : Layout)

namespace Layout

/-- The text that is laid out. -/
def text : Layout → List Char
  | last gap => gap
  | lexeme gap l rest => gap ++ (l.text ++ rest.text)

/-- The lexemes of a layout from the left to the right. -/
def lexemes : Layout → List Lexeme
  | last _ => []
  | lexeme _ l rest => l :: rest.lexemes

/-- **A greedy layout:** nothing in the gaps begins a lexeme, and no numeral could be longer. -/
def IsGreedy : Layout → Prop
  | last gap => IsGap gap []
  | lexeme gap l rest => IsGap gap (l.text ++ rest.text) ∧ l.EndsBefore rest.text ∧ rest.IsGreedy

/-- **The scanner finds the lexemes** of a greedy layout. -/
theorem lexemes_text : ∀ {d : Layout}, d.IsGreedy →
    PocketCalculator.lexemes d.text = d.lexemes.map Lexeme.text
  | last gap, h => by
    have hgap := lexemes_of_isGap h
    rw [List.append_nil] at hgap
    rw [text, hgap]
    simp [PocketCalculator.lexemes, lexemes]
  | lexeme gap l rest, ⟨hgap, hl, hrest⟩ => by
    rw [text, lexemes_of_isGap hgap, l.lexemes_text_append hl, lexemes_text hrest]
    rfl

/-- **A text has one greedy layout only.** -/
theorem eq_of_text_eq : ∀ {d d' : Layout}, d.IsGreedy → d'.IsGreedy → d.text = d'.text → d = d'
  | last gap, last gap', _, _, h => congrArg last h
  | last gap, lexeme gap' l' rest', hgap, ⟨hgap', _, _⟩, h =>
    absurd h (hgap.ne_append_lexeme hgap')
  | lexeme gap l rest, last gap', ⟨hgap, _, _⟩, hgap', h =>
    absurd h.symm (hgap'.ne_append_lexeme hgap)
  | lexeme gap l rest, lexeme gap' l' rest', ⟨hgap, hl, hrest⟩, ⟨hgap', hl', hrest'⟩, h => by
    obtain rfl := hgap.eq_of_append_eq (l.hasNoGap_append _) (l'.hasNoGap_append _) hgap' h
    obtain ⟨rfl, htext⟩ := Lexeme.append_inj hl hl' (List.append_cancel_left h)
    rw [eq_of_text_eq hrest hrest' htext]

/-- A layout with one more character in its first gap. -/
def skip (c : Char) : Layout → Layout
  | last gap => last (c :: gap)
  | lexeme gap l rest => lexeme (c :: gap) l rest

@[simp] theorem text_skip (c : Char) (d : Layout) : (d.skip c).text = c :: d.text := by
  cases d <;> rfl

theorem IsGreedy.skip {c : Char} {d : Layout} (h : d.IsGreedy) (hd : c.isDigit = false)
    (hs : isSymbol c = false) (hp : c = '.' → ∀ x ∈ d.text.head?, x.isDigit = false) :
    (d.skip c).IsGreedy := by
  cases d with
  | last gap => exact ⟨hd, hs, by simpa [text] using hp, h⟩
  | lexeme gap l rest => exact ⟨⟨hd, hs, hp, h.1⟩, h.2⟩

/-- **Every text has a greedy layout.** -/
theorem exists_isGreedy (cs : List Char) : ∃ d : Layout, d.text = cs ∧ d.IsGreedy := by
  fun_induction PocketCalculator.lexemes cs with
  | case1 => exact ⟨last [], rfl, trivial⟩
  | case2 c rest hc ih =>
    obtain ⟨d, rfl, hd⟩ := ih
    exact ⟨lexeme [] (.symbol c hc) d, rfl, trivial, trivial, hd⟩
  | case3 c rest hc hn ih =>
    obtain ⟨d, rfl, hd⟩ := ih
    obtain ⟨hdigit, hpoint⟩ := head_of_numeralPrefix_eq_nil hn
    exact ⟨d.skip c, d.text_skip c, hd.skip hdigit (by simpa using hc) hpoint⟩
  | case4 c rest hc x xs hn ih =>
    obtain ⟨d, hd, hgreedy⟩ := ih
    obtain ⟨n, hnum⟩ := Numeral.exists_numeral (show numeralPrefix (c :: rest) ≠ [] by simp [hn])
    obtain ⟨behind, hbehind⟩ := numeralPrefix_prefix (c :: rest)
    -- the first character belongs to the numeral, the others of it are dropped from the rest
    have hrest : rest.drop xs.length = behind := by
      rw [hn, List.cons_append] at hbehind
      rw [← (List.cons.inj hbehind).2, List.drop_left]
    rw [hnum] at hbehind
    have hend : n.EndsBefore behind := n.endsBefore_of_numeralPrefix (by rw [hbehind, hnum])
    refine ⟨lexeme [] (.numeral n) d, ?_, trivial, ?_, hgreedy⟩
    · rw [text, hd, hrest, List.nil_append]
      exact hbehind
    · rw [hd, hrest]
      exact hend

end Layout

/-! ### The tokens of a line -/

theorem withLeadingZero_eq_ite (cs : List Char) :
    withLeadingZero cs =
      if cs.head? = some '+' ∨ cs.head? = some '-' then '0' :: cs else cs := by
  cases cs with
  | nil => rfl
  | cons c rest => simp only [withLeadingZero, List.head?_cons, Option.some.injEq]

theorem tokensOf_of_isGreedy {line : String} {d : Layout} (h : d.IsGreedy)
    (htext : d.text = withLeadingZero line.toList) :
    tokensOf line = d.lexemes.map Lexeme.token := by
  rw [tokensOf, ← htext, d.lexemes_text h, List.map_map]
  exact List.map_congr_left fun l _ => l.ofText_text

/-- **How a line is laid out.** The line, with a zero in front if it begins with a sign, has one
greedy layout. Its tokens are the lexemes of that layout, each of the kind that its text calls for;
and it is refused just if the layout has no lexeme. -/
theorem tokenize_layout (line : String) :
    ∃ d : Layout,
      (∀ d' : Layout,
        (d'.text = (if line.toList.head? = some '+' ∨ line.toList.head? = some '-' then
            '0' :: line.toList else line.toList) ∧ d'.IsGreedy) ↔ d' = d) ∧
        (d.lexemes ≠ [] → tokenize line = .ok (d.lexemes.map Lexeme.token)) ∧
        (tokenize line = .error (.noTokens line) ↔ d.lexemes = []) := by
  obtain ⟨d, htext, hd⟩ := Layout.exists_isGreedy (withLeadingZero line.toList)
  have htokens := tokensOf_of_isGreedy hd htext
  rw [withLeadingZero_eq_ite] at htext
  refine ⟨d, fun d' => ⟨fun ⟨htext', hd'⟩ => ?_, ?_⟩, fun hne => ?_, ?_⟩
  · exact Layout.eq_of_text_eq hd' hd (htext'.trans htext.symm)
  · rintro rfl
    exact ⟨htext, hd⟩
  · obtain ⟨l, ls, hl⟩ := List.exists_cons_of_ne_nil hne
    simp only [tokenize, htokens, hl, List.map_cons]
  · rcases hl : d.lexemes with _ | ⟨l, ls⟩
    · simp [tokenize, htokens, hl]
    · simp [tokenize, htokens, hl]

end PocketCalculator
