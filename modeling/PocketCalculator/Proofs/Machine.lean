import PocketCalculator.Proofs.Grammar

/-! # The stack of values

The numbers of a type `α` have a text, and a value that is read from the text. On the postorder of
a tree the stack gets the value of the tree (`foldlM_postorder`). Conversely a run that does not
fail has read the postorders of trees, one for each value on the stack (`exists_forest`). So the
tokens with a value are the postorders of the trees with a finite value
(`postfixValue_eq_ok_iff`). -/

namespace PocketCalculator

section Machine

variable {α : Type} {text : α → String} {value : α → Binary64}
variable (hread : ∀ a, Binary64.ofText? (text a) = some (value a))
include hread

theorem stackStep_number (stack : List Binary64) (a : α) :
    stackStep stack (.number (text a)) = .ok (value a :: stack) := by
  simp only [stackStep, Token.number, hread]

omit hread in
theorem stackStep_operator (stack : List Binary64) (op : Operator) (a b : Binary64) :
    stackStep (b :: a :: stack) op.token =
      match op.combine? a b with
      | some x => .ok (x :: stack)
      | none => .error .divisionByZero := by
  simp only [stackStep, Operator.kind_token, Operator.text_token, Operator.applyOperator_text]
  cases op.combine? a b <;> rfl

/-! ### The tokens of a tree -/

/-- **The step over the postorder of a tree.** -/
theorem foldlM_postorder : ∀ (t : Tree α) (stack : List Binary64) (rest : List Token),
    (t.postorder text ++ rest).foldlM stackStep stack =
      match t.value? value with
      | some x => rest.foldlM stackStep (x :: stack)
      | none => .error .divisionByZero
  | .number a, stack, rest => by
    simp only [Tree.postorder, Tree.value?, List.cons_append, List.nil_append, List.foldlM_cons,
      stackStep_number hread]
    rfl
  | .node op left right, stack, rest => by
    have hl := foldlM_postorder left stack (right.postorder text ++ (op.token :: rest))
    simp only [Tree.postorder, Tree.value?, List.append_assoc, List.cons_append, List.nil_append,
      hl]
    rcases left.value? value with _ | a
    · rfl
    · simp only [Option.bind_some, foldlM_postorder right (a :: stack) (op.token :: rest)]
      rcases right.value? value with _ | b
      · rfl
      · simp only [Option.bind_some, List.foldlM_cons, stackStep_operator]
        cases op.combine? a b <;> rfl

theorem postfixValue_postorder (t : Tree α) :
    postfixValue (t.postorder text) =
      match t.value? value with
      | some x => if x.isFinite then .ok x else .error (.notFinite x)
      | none => .error .divisionByZero := by
  have h := foldlM_postorder hread t [] []
  rw [List.append_nil] at h
  unfold postfixValue
  rw [h]
  cases t.value? value <;> rfl

/-! ### The trees of a run -/

/-- A tree with its value. -/
structure Valued (value : α → Binary64) where
  tree : Tree α
  result : Binary64
  value_eq : tree.value? value = some result

/-- The tokens read for the values on a stack, the first ones for the lowest value. -/
def tokensRead (text : α → String) (forest : List (Valued value)) : List Token :=
  forest.reverse.flatMap (·.tree.postorder text)

omit hread in
theorem tokensRead_cons (v : Valued value) (forest : List (Valued value)) :
    tokensRead text (v :: forest) = tokensRead text forest ++ v.tree.postorder text := by
  simp [tokensRead]

theorem exists_forest_step (forest : List (Valued value)) {t : Token} {next : List Binary64}
    (ht : IsPostfixToken text t) (h : stackStep (forest.map (·.result)) t = .ok next) :
    ∃ forest' : List (Valued value), next = forest'.map (·.result) ∧
      tokensRead text forest' = tokensRead text forest ++ [t] := by
  cases ht with
  | number a =>
    rw [stackStep_number hread] at h
    cases h
    exact ⟨⟨.number a, value a, rfl⟩ :: forest, rfl, tokensRead_cons _ _⟩
  | operator op =>
    match forest, h with
    | [], h => cases h
    | [_], h => cases h
    | b :: a :: forest, h =>
      rw [List.map_cons, List.map_cons, stackStep_operator] at h
      rcases hop : op.combine? a.result b.result with _ | x
      · rw [hop] at h; cases h
      · rw [hop] at h
        cases h
        -- the two trees on top become the operands of a new one
        refine ⟨⟨.node op a.tree b.tree, x, ?_⟩ :: forest, rfl, ?_⟩
        · rw [Tree.value?, a.value_eq, Option.bind_some, b.value_eq, Option.bind_some, hop]
        · simp only [tokensRead_cons, Tree.postorder, List.append_assoc]

/-- **A run that does not fail has read the postorders of trees.** -/
theorem exists_forest : ∀ (ts : List Token) (forest : List (Valued value)) {final : List Binary64},
    (∀ t ∈ ts, IsPostfixToken text t) →
    ts.foldlM stackStep (forest.map (·.result)) = .ok final →
    ∃ forest' : List (Valued value), final = forest'.map (·.result) ∧
      tokensRead text forest' = tokensRead text forest ++ ts
  | [], forest, final, _, h => by
    cases h
    exact ⟨forest, rfl, by simp⟩
  | t :: ts, forest, final, hts, h => by
    rw [List.foldlM_cons] at h
    rcases hs : stackStep (forest.map (·.result)) t with cause | next
    · rw [hs] at h; cases h
    · rw [hs] at h
      obtain ⟨forest₁, rfl, h₁⟩ := exists_forest_step hread forest (hts t (by simp)) hs
      obtain ⟨forest₂, h₂, h₃⟩ := exists_forest ts forest₁
        (fun t ht => hts t (List.mem_cons_of_mem _ ht)) h
      exact ⟨forest₂, h₂, by rw [h₃, h₁, List.append_assoc]; rfl⟩

/-- **The tokens with a value** are the postorders of the trees with a finite value. -/
theorem postfixValue_eq_ok_iff {ts : List Token} {x : Binary64}
    (hts : ∀ t ∈ ts, IsPostfixToken text t) :
    postfixValue ts = .ok x ↔
      ∃ t : Tree α, t.postorder text = ts ∧ t.value? value = some x ∧ x.isFinite = true := by
  constructor
  · intro h
    unfold postfixValue at h
    rcases hf : ts.foldlM stackStep [] with cause | final
    · rw [hf] at h; cases h
    · rw [hf] at h
      obtain ⟨forest, rfl, hforest⟩ := exists_forest hread ts [] hts hf
      match forest, h, hforest with
      | [], h, _ => cases h
      | [v], h, hforest =>
        simp only [List.map_cons, List.map_nil, bind, Except.bind] at h
        split at h
        · next hfin =>
          cases h
          exact ⟨v.tree, by simpa [tokensRead] using hforest, v.value_eq, hfin⟩
        · cases h
      | _ :: _ :: _, h, _ => cases h
  · rintro ⟨t, rfl, hv, hx⟩
    rw [postfixValue_postorder hread, hv]
    simp only [if_pos hx]

/-! ### Failures -/

theorem kind_of_stackStep {stack : List Binary64} {t : Token} {cause : Failure}
    (ht : IsPostfixToken text t) (h : stackStep stack t = .error cause) :
    cause.kind? = some .malformedExpression ∨ cause.kind? = some .divisionByZero := by
  cases ht with
  | number a => rw [stackStep_number hread] at h; cases h
  | operator op =>
    match stack, h with
    | [], h => cases h; exact Or.inl rfl
    | [_], h => cases h; exact Or.inl rfl
    | b :: a :: stack, h =>
      rw [stackStep_operator] at h
      rcases hop : op.combine? a b with _ | x
      · rw [hop] at h; cases h; exact Or.inr rfl
      · rw [hop] at h; cases h

theorem kind_of_foldlM : ∀ {ts : List Token} {stack : List Binary64} {cause : Failure},
    (∀ t ∈ ts, IsPostfixToken text t) → ts.foldlM stackStep stack = .error cause →
    cause.kind? = some .malformedExpression ∨ cause.kind? = some .divisionByZero
  | [], _, _, _, h => by cases h
  | t :: ts, stack, cause, hts, h => by
    rw [List.foldlM_cons] at h
    rcases hs : stackStep stack t with cause' | next
    · rw [hs] at h
      cases h
      exact kind_of_stackStep hread (hts t (by simp)) hs
    · rw [hs] at h
      exact kind_of_foldlM (fun t ht => hts t (List.mem_cons_of_mem _ ht)) h

/-- **Tokens in postfix order** have a finite value or fail by one of three kinds. -/
theorem postfixValue_cases {ts : List Token} (hts : ∀ t ∈ ts, IsPostfixToken text t) :
    (∃ x, postfixValue ts = .ok x ∧ x.isFinite = true) ∨
      ∃ cause kind, postfixValue ts = .error cause ∧ cause.kind? = some kind ∧
        (kind = .malformedExpression ∨ kind = .divisionByZero ∨ kind = .numericOverflow) := by
  unfold postfixValue
  rcases hf : ts.foldlM stackStep [] with cause | final
  · right
    rcases kind_of_foldlM hread hts hf with hk | hk
    · exact ⟨cause, _, rfl, hk, Or.inl rfl⟩
    · exact ⟨cause, _, rfl, hk, Or.inr (Or.inl rfl)⟩
  · match final with
    | [] => exact Or.inr ⟨.leftOver 0, _, rfl, rfl, Or.inl rfl⟩
    | [x] =>
      simp only [bind, Except.bind]
      rcases hx : x.isFinite with _ | _
      · exact Or.inr ⟨.notFinite x, _, rfl, rfl, Or.inr (Or.inr rfl)⟩
      · exact Or.inl ⟨x, rfl, hx⟩
    | x :: y :: zs => exact Or.inr ⟨.leftOver (x :: y :: zs).length, _, rfl, rfl, Or.inl rfl⟩

end Machine

end PocketCalculator
