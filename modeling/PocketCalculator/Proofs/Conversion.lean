import PocketCalculator.Proofs.Grammar

/-! # The postfix order of a phrase

When a phrase has been read, some of its tokens have come out (`emitted`) and some operators still
wait on the stack (`held`); together they are the postorder of its tree. The waiting operators bind
at least as tightly as the level of the phrase, so that the next operator of that level, or the end
of the group, lets all of them go. What lies below them on the stack has to bind less tightly
(`TopLooser`). `arrange_tokens` is the step over a whole phrase, `postfix_of_phrase` the result:
the postorder of the tree, and nothing but the parentheses lost (`Phrase.perm_postorder`). -/

namespace PocketCalculator

variable {α : Type} {l : Level}

/-! ### One token -/

section Step
variable (stack ts : List Token)

theorem arrange_number (text : String) :
    arrange stack (.number text :: ts) = (.number text :: ·) <$> arrange stack ts := rfl

theorem arrange_opening : arrange stack (.opening :: ts) = arrange (.opening :: stack) ts := rfl

theorem arrange_operator {op : Operator} {released rest : List Token}
    (h : releaseTighter op.token stack = .ok (released, rest)) :
    arrange stack (op.token :: ts) = (released ++ ·) <$> arrange (op.token :: rest) ts := by
  simp only [arrange, Operator.kind_token, h]
  rfl

theorem arrange_closing {inner : List Token} (h : ∀ t ∈ inner, t.isInner = true) :
    arrange (inner ++ .opening :: stack) (.closing :: ts) =
      (inner ++ ·) <$> arrange stack ts := by
  have hd : (inner ++ .opening :: stack).dropWhile Token.isInner = .opening :: stack := by
    rw [List.dropWhile_append_of_pos h]; rfl
  have ht : (inner ++ .opening :: stack).takeWhile Token.isInner = inner := by
    rw [List.takeWhile_append_of_pos h]; simp [Token.isInner, Token.opening]
  have hkind : Token.closing.kind = .rightParen := rfl
  simp only [arrange, hkind, hd, ht]

theorem arrange_closing_of_inner (h : ∀ t ∈ stack, t.isInner = true) :
    arrange stack (.closing :: ts) = .error .closingWithoutOpening := by
  have hd : (stack ++ []).dropWhile Token.isInner = [] := List.dropWhile_append_of_pos h
  have hkind : Token.closing.kind = .rightParen := rfl
  rw [List.append_nil] at hd
  simp only [arrange, hkind, hd]

end Step

theorem map_append_map (a b : List Token) (x : Except Failure (List Token)) :
    (a ++ ·) <$> (b ++ ·) <$> x = (a ++ b ++ ·) <$> x := by
  rcases x with _ | c
  · rfl
  · simp [Functor.map, Except.map]

/-- The top of the stack binds less tightly than the operators of a level. -/
def TopLooser (l : Level) (stack : List Token) : Prop :=
  ∀ t ∈ stack.head?, t.isOperator = true →
    ∃ op : Operator, t = op.token ∧ op.level.tightness < l.tightness

theorem TopLooser.of_tighter {l l' : Level} {stack : List Token} (h : TopLooser l stack)
    (hl : l.tightness ≤ l'.tightness) : TopLooser l' stack := by
  intro t ht ho
  obtain ⟨op, rfl, hop⟩ := h t ht ho
  exact ⟨op, rfl, by omega⟩

theorem topLooser_nil (l : Level) : TopLooser l [] := by intro t ht; cases ht

theorem topLooser_opening (l : Level) (stack : List Token) : TopLooser l (.opening :: stack) := by
  intro t ht ho
  cases ht
  cases ho

theorem topLooser_operator {op : Operator} {l : Level} (h : op.level.tightness < l.tightness)
    (stack : List Token) : TopLooser l (op.token :: stack) := by
  intro t ht _
  cases ht
  exact ⟨op, rfl, h⟩

/-- An operator lets go what binds at least as tightly, down to a top that binds less tightly. -/
theorem releaseTighter_held {op : Operator} {stack : List Token} (hs : TopLooser op.level stack) :
    ∀ ops : List Operator, (∀ o ∈ ops, op.level.tightness ≤ o.level.tightness) →
      releaseTighter op.token (ops.map Operator.token ++ stack) =
        .ok (ops.map Operator.token, stack)
  | [], _ => by
    rcases stack with _ | ⟨top, stack⟩
    · rfl
    · simp only [List.map_nil, List.nil_append, releaseTighter]
      split
      · next ho =>
        obtain ⟨o, rfl, hlt⟩ := hs top (by simp) ho
        simp only [Operator.text_token, Operator.precedence_text, bind, Except.bind]
        rw [if_neg (by omega)]
      · rfl
  | o :: ops, h => by
    have ho : op.level.tightness ≤ o.level.tightness := h o (by simp)
    have ih := releaseTighter_held hs ops fun o ho => h o (List.mem_cons_of_mem _ ho)
    simp only [List.map_cons, List.cons_append, releaseTighter, Operator.isOperator_token, if_true,
      Operator.text_token, Operator.precedence_text, bind, Except.bind]
    rw [if_pos ho, ih]

/-! ### A whole phrase -/

/-- The tokens that come out are numbers and operators. -/
def Token.comesOut (t : Token) : Bool := t.isNumber || t.isOperator

namespace Phrase

variable (text : α → String)

/-- The operators that wait when a phrase has been read, the last one first. -/
def held : {l : Level} → Phrase α l → List Operator
  | _, number _ => []
  | _, group _ => []
  | _, factor f => f.held
  | _, product _ op _ f => f.held ++ [op]
  | _, term t => t.held
  | _, sum _ op _ t => t.held ++ [op]

/-- The tokens that have come out when a phrase has been read. -/
def emitted : {l : Level} → Phrase α l → List Token
  | _, number a => [.number (text a)]
  | _, group e => e.tree.postorder text
  | _, factor f => f.emitted
  | _, product t _ _ f => t.tree.postorder text ++ f.emitted
  | _, term t => t.emitted
  | _, sum e _ _ t => e.tree.postorder text ++ t.emitted

theorem emitted_append_held : ∀ {l : Level} (e : Phrase α l),
    e.emitted text ++ e.held.map Operator.token = e.tree.postorder text
  | _, number a => rfl
  | _, group e => by simp [emitted, held, tree]
  | _, factor f => emitted_append_held f
  | _, product t op _ f => by
    simp only [emitted, held, tree, Tree.postorder, ← emitted_append_held f, List.map_append,
      List.append_assoc, List.map_cons, List.map_nil]
  | _, term t => emitted_append_held t
  | _, sum e op _ t => by
    simp only [emitted, held, tree, Tree.postorder, ← emitted_append_held t, List.map_append,
      List.append_assoc, List.map_cons, List.map_nil]

theorem tightness_le_of_mem_held : ∀ {l : Level} (e : Phrase α l), ∀ op ∈ e.held,
    l.tightness ≤ op.level.tightness
  | _, number _, _, hop => by cases hop
  | _, group _, _, hop => by cases hop
  | _, factor f, op, hop => Nat.le_trans (by decide) (tightness_le_of_mem_held f op hop)
  | _, product t o h f, op, hop => by
    rcases List.mem_append.mp hop with hop | hop
    · exact Nat.le_trans (by decide) (tightness_le_of_mem_held f op hop)
    · obtain rfl := List.mem_singleton.mp hop
      exact Nat.le_of_eq (congrArg Level.tightness h.symm)
  | _, term t, op, hop => Nat.le_trans (by decide) (tightness_le_of_mem_held t op hop)
  | _, sum e o h t, op, hop => by
    rcases List.mem_append.mp hop with hop | hop
    · exact Nat.le_trans (by decide) (tightness_le_of_mem_held t op hop)
    · obtain rfl := List.mem_singleton.mp hop
      exact Nat.le_of_eq (congrArg Level.tightness h.symm)

theorem isInner_of_mem_held (ops : List Operator) :
    ∀ t ∈ ops.map Operator.token, t.isInner = true := by
  intro t ht
  obtain ⟨op, -, rfl⟩ := List.mem_map.mp ht
  rfl

theorem arrange_phrase_operator {e : Phrase α l} {stack : List Token} (ts : List Token)
    {op : Operator} (hop : op.level = l) (hs : TopLooser l stack)
    (he : ∀ rest, arrange stack (e.tokens text ++ rest) =
      (e.emitted text ++ ·) <$> arrange (e.held.map Operator.token ++ stack) rest) :
    arrange stack (e.tokens text ++ op.token :: ts) =
      (e.tree.postorder text ++ ·) <$> arrange (op.token :: stack) ts := by
  subst hop
  rw [he, arrange_operator _ _ (releaseTighter_held hs _ (tightness_le_of_mem_held e)),
    map_append_map, emitted_append_held]

/-- **The step over a phrase.** -/
theorem arrange_tokens : ∀ {l : Level} (e : Phrase α l) (stack rest : List Token),
    TopLooser l stack → arrange stack (e.tokens text ++ rest) =
      (e.emitted text ++ ·) <$> arrange (e.held.map Operator.token ++ stack) rest
  | _, number a, stack, rest, _ => rfl
  | _, group e, stack, rest, _ => by
    -- the parenthesis shields the stack, so that any level may follow
    have ih := arrange_tokens e (.opening :: stack) (.closing :: rest) (topLooser_opening _ _)
    simp only [tokens, List.cons_append, List.append_assoc, List.nil_append]
    rw [arrange_opening, ih, arrange_closing _ _ (isInner_of_mem_held _), map_append_map,
      emitted_append_held]
    rfl
  | _, factor f, stack, rest, hs =>
    arrange_tokens f stack rest (hs.of_tighter (by decide))
  | _, product t op h f, stack, rest, hs => by
    have ht := arrange_phrase_operator text (f.tokens text ++ rest) h hs
      fun rest => arrange_tokens t stack rest hs
    have hf := arrange_tokens f (op.token :: stack) rest
      (topLooser_operator (by rw [h]; decide) stack)
    simp only [tokens, List.append_assoc, List.cons_append]
    rw [ht, hf, map_append_map]
    simp [emitted, held]
  | _, term t, stack, rest, hs =>
    arrange_tokens t stack rest (hs.of_tighter (by decide))
  | _, sum e op h t, stack, rest, hs => by
    have he := arrange_phrase_operator text (t.tokens text ++ rest) h hs
      fun rest => arrange_tokens e stack rest hs
    have ht := arrange_tokens t (op.token :: stack) rest
      (topLooser_operator (by rw [h]; decide) stack)
    simp only [tokens, List.append_assoc, List.cons_append]
    rw [he, ht, map_append_map]
    simp [emitted, held]

/-- **The tokens of a phrase in postfix order** are the postorder of its tree. -/
theorem toPostfix_tokens (e : Phrase α l) :
    toPostfix (e.tokens text) = .ok (e.tree.postorder text) := by
  have h := arrange_tokens text e [] [] (topLooser_nil _)
  have hall : (e.held.map Operator.token ++ []).all Token.isInner = true := by
    rw [List.append_nil, List.all_eq_true]
    exact isInner_of_mem_held _
  rw [List.append_nil] at h
  rw [toPostfix, h]
  unfold arrange
  rw [if_pos hall, List.append_nil, ← emitted_append_held]
  rfl

theorem perm_operator {left left' right right' : List Token} (op : Operator)
    (hl : left.Perm (left'.filter Token.comesOut))
    (hr : right.Perm (right'.filter Token.comesOut)) :
    (left ++ right ++ [op.token]).Perm ((left' ++ op.token :: right').filter Token.comesOut) := by
  have hmove : (right ++ [op.token]).Perm (op.token :: right) := List.perm_append_singleton _ _
  rw [List.append_assoc, List.filter_append, List.filter_cons_of_pos rfl]
  exact hl.append (hmove.trans (hr.cons _))

theorem perm_postorder : ∀ {l : Level} (e : Phrase α l),
    (e.tree.postorder text).Perm ((e.tokens text).filter Token.comesOut)
  | _, number a => .refl _
  | _, group e => by
    rw [tokens, List.filter_cons_of_neg (by decide), List.filter_append,
      List.filter_cons_of_neg (by decide), List.filter_nil, List.append_nil]
    exact perm_postorder e
  | _, factor f => perm_postorder f
  | _, product t op _ f => perm_operator op (perm_postorder t) (perm_postorder f)
  | _, term t => perm_postorder t
  | _, sum e op _ t => perm_operator op (perm_postorder e) (perm_postorder t)

end Phrase

/-- **The conversion of a phrase** into postfix order succeeds. What comes out is the postorder of
the tree, the tokens of the left operand, those of the right one and the operator at every node; so
the parentheses are dropped and everything else is there. -/
theorem postfix_of_phrase {α : Type} {l : Level} (text : α → String) (e : Phrase α l) :
    toPostfix (e.tokens text) = .ok (e.tree.postorder text) ∧
      (e.tree.postorder text).Perm ((e.tokens text).filter Token.comesOut) :=
  ⟨e.toPostfix_tokens text, e.perm_postorder text⟩

end PocketCalculator
