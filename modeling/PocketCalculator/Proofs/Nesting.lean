import PocketCalculator.Proofs.Conversion

/-! # Parentheses and the postfix order

Whether a line has a postfix order depends on its parentheses alone. `nesting? d ts` is the number
of open parentheses behind the tokens `ts`, `d` of them being open before; there is none if one too
many is closed. The conversion ends well if no parenthesis is open at the end
(`arrange_nesting`), and then no parenthesis is left among the tokens. -/

namespace PocketCalculator

/-- The number of parentheses open behind some tokens, unless one too many is closed. -/
def nesting? : Nat → List Token → Option Nat
  | depth, [] => some depth
  | depth, t :: ts =>
    match t.kind, depth with
    | .leftParen, depth => nesting? (depth + 1) ts
    | .rightParen, 0 => none
    | .rightParen, depth + 1 => nesting? depth ts
    | _, depth => nesting? depth ts

section Nesting
variable (depth : Nat) (ts : List Token)

@[simp] theorem nesting?_number (text : String) :
    nesting? depth (.number text :: ts) = nesting? depth ts := rfl

@[simp] theorem nesting?_operator (op : Operator) :
    nesting? depth (op.token :: ts) = nesting? depth ts := rfl

@[simp] theorem nesting?_opening :
    nesting? depth (.opening :: ts) = nesting? (depth + 1) ts := rfl

@[simp] theorem nesting?_closing_zero : nesting? 0 (.closing :: ts) = none := rfl

@[simp] theorem nesting?_closing_succ :
    nesting? (depth + 1) (.closing :: ts) = nesting? depth ts := rfl

end Nesting

/-! ### The stack of waiting tokens -/

/-- What may wait on the stack: operators and opening parentheses. -/
inductive IsWaiting : Token → Prop where
  | operator (op : Operator) : IsWaiting op.token
  | opening : IsWaiting .opening

/-- The number of open parentheses on a stack. -/
def openCount (stack : List Token) : Nat := stack.countP (!·.isInner)

theorem isPostfixToken_of_inner {α : Type} (text : α → String) {t : Token} (h : IsWaiting t)
    (hi : t.isInner = true) : IsPostfixToken text t := by
  cases h with
  | operator op => exact .operator op
  | opening => cases hi

/-- On a stack of waiting tokens an operator finds a place. -/
theorem exists_releaseTighter (op : Operator) : ∀ {stack : List Token}, (∀ t ∈ stack, IsWaiting t) →
    ∃ released rest, releaseTighter op.token stack = .ok (released, rest) ∧
      ∀ t ∈ released, ∃ o : Operator, t = o.token
  | [], _ => ⟨[], [], rfl, by simp⟩
  | top :: stack, h => by
    cases h top (by simp) with
    | opening => exact ⟨[], .opening :: stack, rfl, by simp⟩
    | operator o =>
      obtain ⟨released, rest, hr, hall⟩ :=
        exists_releaseTighter op fun t ht => h t (List.mem_cons_of_mem _ ht)
      simp only [releaseTighter, Operator.isOperator_token, if_true, Operator.text_token,
        Operator.precedence_text, bind, Except.bind]
      by_cases hle : op.level.tightness ≤ o.level.tightness
      · refine ⟨o.token :: released, rest, by rw [if_pos hle, hr], fun t ht => ?_⟩
        rcases List.mem_cons.mp ht with rfl | ht
        · exact ⟨o, rfl⟩
        · exact hall t ht
      · exact ⟨[], o.token :: stack, by rw [if_neg hle], by simp⟩

theorem openCount_of_inner {inner : List Token} (h : ∀ t ∈ inner, t.isInner = true)
    (stack : List Token) : openCount (inner ++ stack) = openCount stack := by
  have h0 : inner.countP (!·.isInner) = 0 := List.countP_eq_zero.mpr fun t ht => by simp [h t ht]
  rw [openCount, List.countP_append, h0, Nat.zero_add]
  rfl

theorem openCount_opening (stack : List Token) :
    openCount (.opening :: stack) = openCount stack + 1 := List.countP_cons_of_pos rfl

theorem openCount_eq_zero {stack : List Token} (h : ∀ t ∈ stack, t.isInner = true) :
    openCount stack = 0 := List.countP_eq_zero.mpr fun t ht => by simp [h t ht]

/-- A stack is its part above the topmost open parenthesis, that parenthesis, and the rest. -/
theorem waiting_cases {stack : List Token} (h : ∀ t ∈ stack, IsWaiting t) :
    (∀ t ∈ stack, t.isInner = true) ∨ ∃ inner rest, stack = inner ++ .opening :: rest ∧
      ∀ t ∈ inner, t.isInner = true := by
  induction stack with
  | nil => exact Or.inl (by simp)
  | cons top stack ih =>
    cases h top (by simp) with
    | opening => exact Or.inr ⟨[], stack, rfl, by simp⟩
    | operator o =>
      rcases ih fun t ht => h t (List.mem_cons_of_mem _ ht) with hin | ⟨inner, rest, rfl, hin⟩
      · left
        intro t ht
        rcases List.mem_cons.mp ht with rfl | ht
        · rfl
        · exact hin t ht
      · refine Or.inr ⟨o.token :: inner, rest, rfl, fun t ht => ?_⟩
        rcases List.mem_cons.mp ht with rfl | ht
        · rfl
        · exact hin t ht

/-! ### The conversion -/

section Conversion

variable {α : Type} (text : α → String)

/-- What the nesting at the end says about the conversion. -/
def Decides (nesting : Option Nat) (result : Except Failure (List Token)) : Prop :=
  match nesting with
  | none => result = .error .closingWithoutOpening
  | some 0 => ∃ out, result = .ok out ∧ ∀ t ∈ out, IsPostfixToken text t
  | some (_ + 1) => result = .error .openingNeverClosed

theorem Decides.map_append {released : List Token} (h : ∀ t ∈ released, IsPostfixToken text t)
    {nesting : Option Nat} {result : Except Failure (List Token)}
    (hd : Decides text nesting result) : Decides text nesting ((released ++ ·) <$> result) := by
  match nesting, hd with
  | none, hd => cases hd; exact rfl
  | some 0, ⟨out, ho, hall⟩ =>
    cases ho
    refine ⟨released ++ out, rfl, fun t ht => ?_⟩
    rcases List.mem_append.mp ht with ht | ht
    · exact h t ht
    · exact hall t ht
  | some (_ + 1), hd => cases hd; exact rfl

theorem decides_nil {stack : List Token} (h : ∀ t ∈ stack, IsWaiting t) :
    Decides text (some (openCount stack)) (arrange stack []) := by
  unfold arrange
  rcases waiting_cases h with hin | ⟨inner, rest, rfl, hin⟩
  · rw [openCount_eq_zero hin, if_pos (List.all_eq_true.mpr hin)]
    exact ⟨stack, rfl, fun t ht => isPostfixToken_of_inner text (h t ht) (hin t ht)⟩
  · rw [openCount_of_inner hin, openCount_opening, if_neg (by simp [Token.isInner, Token.opening])]
    exact rfl

/-- **The parentheses decide** whether there is a postfix order, and how it fails. -/
theorem arrange_nesting : ∀ ts stack : List Token,
    (∀ t ∈ stack, IsWaiting t) → (∀ t ∈ ts, IsLineToken text t) →
    Decides text (nesting? (openCount stack) ts) (arrange stack ts)
  | [], _, hs, _ => decides_nil text hs
  | t :: ts, stack, hs, hts => by
    have hrest : ∀ t ∈ ts, IsLineToken text t := fun t ht => hts t (List.mem_cons_of_mem _ ht)
    cases hts t (by simp) with
    | number a =>
      rw [nesting?_number, arrange_number]
      have hnum : ∀ t ∈ [Token.number (text a)], IsPostfixToken text t := by
        simpa using IsPostfixToken.number a
      exact (arrange_nesting ts stack hs hrest).map_append text hnum
    | operator op =>
      obtain ⟨released, rest, hr, hops⟩ := exists_releaseTighter op hs
      obtain rfl := append_of_releaseTighter hr
      have hin : ∀ t ∈ released, t.isInner = true := fun t ht => by
        obtain ⟨o, rfl⟩ := hops t ht; rfl
      have hcount : openCount (released ++ rest) = openCount (op.token :: rest) := by
        rw [openCount_of_inner hin]; exact (List.countP_cons_of_neg (by simp)).symm
      rw [nesting?_operator, arrange_operator _ _ hr, hcount]
      refine (arrange_nesting ts _ (fun t ht => ?_) hrest).map_append text fun t ht =>
        isPostfixToken_of_inner text (hs t (List.mem_append_left _ ht)) (hin t ht)
      rcases List.mem_cons.mp ht with rfl | ht
      · exact .operator op
      · exact hs t (List.mem_append_right _ ht)
    | opening =>
      rw [nesting?_opening, arrange_opening, ← openCount_opening]
      refine arrange_nesting ts _ (fun t ht => ?_) hrest
      rcases List.mem_cons.mp ht with rfl | ht
      · exact .opening
      · exact hs t ht
    | closing =>
      rcases waiting_cases hs with hin | ⟨inner, rest, rfl, hin⟩
      · rw [openCount_eq_zero hin, nesting?_closing_zero]
        exact arrange_closing_of_inner stack ts hin
      · rw [openCount_of_inner hin, openCount_opening, nesting?_closing_succ,
          arrange_closing _ _ hin]
        exact (arrange_nesting ts rest (fun t ht => hs t (by simp [ht])) hrest).map_append text
          fun t ht => isPostfixToken_of_inner text (hs t (by simp [ht])) (hin t ht)

theorem toPostfix_nesting {ts : List Token} (hts : ∀ t ∈ ts, IsLineToken text t) :
    Decides text (nesting? 0 ts) (toPostfix ts) :=
  arrange_nesting text ts [] (by simp) hts

end Conversion

end PocketCalculator
