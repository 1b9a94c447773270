import PocketCalculator.Proofs.Nesting

/-! # Sentences and alternation

In a sentence operands and operators alternate: a number or an opening parenthesis stands where an
operand is due, an operator or a closing parenthesis behind an operand. Conversely, tokens that
alternate and whose parentheses are in pairs are a sentence (`isSentence_of_alternates`). -/

namespace PocketCalculator

/-- Whether operands and operators alternate; `operand` tells that an operand is due. -/
def alternates : (operand : Bool) → List Token → Bool
  | operand, [] => !operand
  | operand, t :: ts =>
    match operand, t.kind with
    | true, .number => alternates false ts
    | true, .leftParen => alternates true ts
    | false, .operator => alternates true ts
    | false, .rightParen => alternates false ts
    | _, _ => false

section Alternates
variable (ts : List Token)

@[simp] theorem alternates_opening :
    alternates true (.opening :: ts) = alternates true ts := rfl

@[simp] theorem alternates_operator (op : Operator) :
    alternates false (op.token :: ts) = alternates true ts := rfl

@[simp] theorem alternates_closing :
    alternates false (.closing :: ts) = alternates false ts := rfl

variable {ts} {operand : Bool}

theorem alternates_number_iff {text : String} :
    alternates operand (.number text :: ts) = true ↔
      operand = true ∧ alternates false ts = true := by
  cases operand <;> simp [alternates, Token.number]

theorem alternates_opening_iff :
    alternates operand (.opening :: ts) = true ↔ operand = true ∧ alternates true ts = true := by
  cases operand <;> simp [alternates, Token.opening]

theorem alternates_operator_iff {op : Operator} :
    alternates operand (op.token :: ts) = true ↔ operand = false ∧ alternates true ts = true := by
  cases operand <;> simp [alternates, Operator.token]

theorem alternates_closing_iff :
    alternates operand (.closing :: ts) = true ↔ operand = false ∧ alternates false ts = true := by
  cases operand <;> simp [alternates, Token.closing]

end Alternates

/-! ### Sentences alternate -/

section Phrase
variable {α : Type} (text : α → String)

/-- A phrase stands where an operand is due, and no operand is due behind it. -/
theorem Phrase.alternates_tokens : ∀ {l : Level} (e : Phrase α l) (ts : List Token),
    alternates true (e.tokens text ++ ts) = alternates false ts
  | _, number a, ts => rfl
  | _, group e, ts => by
    have ih := alternates_tokens e (.closing :: ts)
    simp only [tokens, List.cons_append, List.append_assoc, List.nil_append, alternates_opening,
      ih, alternates_closing]
  | _, factor f, ts => alternates_tokens f ts
  | _, product t op _ f, ts => by
    simp only [tokens, List.append_assoc, List.cons_append, alternates_tokens t,
      alternates_operator, alternates_tokens f]
  | _, term t, ts => alternates_tokens t ts
  | _, sum e op _ t, ts => by
    simp only [tokens, List.append_assoc, List.cons_append, alternates_tokens e,
      alternates_operator, alternates_tokens t]

theorem Phrase.alternates_sum (e : Phrase α .sum) : alternates true (e.tokens text) = true := by
  have h := e.alternates_tokens text []
  rwa [List.append_nil] at h

theorem Phrase.isLineToken_tokens : ∀ {l : Level} (e : Phrase α l),
    ∀ t ∈ e.tokens text, IsLineToken text t
  | _, number a, t, ht => by
    rw [List.mem_singleton.mp ht]; exact .number a
  | _, group e, t, ht => by
    rcases List.mem_cons.mp ht with rfl | ht
    · exact .opening
    rcases List.mem_append.mp ht with ht | ht
    · exact isLineToken_tokens e t ht
    · rw [List.mem_singleton.mp ht]; exact .closing
  | _, factor f, t, ht => isLineToken_tokens f t ht
  | _, product u op _ f, t, ht => by
    rcases List.mem_append.mp ht with ht | ht
    · exact isLineToken_tokens u t ht
    rcases List.mem_cons.mp ht with rfl | ht
    · exact .operator op
    · exact isLineToken_tokens f t ht
  | _, term u, t, ht => isLineToken_tokens u t ht
  | _, sum e op _ u, t, ht => by
    rcases List.mem_append.mp ht with ht | ht
    · exact isLineToken_tokens e t ht
    rcases List.mem_cons.mp ht with rfl | ht
    · exact .operator op
    · exact isLineToken_tokens u t ht

end Phrase

/-! ### What alternates is a sentence -/

/-- Tokens that lack a factor at their end to be a sentence. -/
def LacksFactor (ts : List Token) : Prop :=
  ∀ f : Phrase String .factor, IsSentence (ts ++ f.tokens id)

theorem lacksFactor_nil : LacksFactor [] := fun f => ⟨.term (.factor f), rfl⟩

theorem lacksFactor_operator {ts : List Token} (h : IsSentence ts) (op : Operator) :
    LacksFactor (ts ++ [op.token]) := by
  obtain ⟨e, rfl⟩ := h
  intro f
  rw [List.append_assoc, List.singleton_append]
  cases hop : op.level with
  | sum => exact ⟨.sum e op hop (.factor f), rfl⟩
  | product =>
    cases e with
    | term t => exact ⟨.term (.product t op hop f), rfl⟩
    | sum e o ho t =>
      refine ⟨.sum e o ho (.product t op hop f), ?_⟩
      simp only [Phrase.tokens, List.append_assoc, List.cons_append]
  | factor => cases op <;> cases hop

/-- The tokens of open groups, the innermost first, and of what stands in the innermost. -/
def joined : List (List Token) → List Token → List Token
  | [], inner => inner
  | outer :: frames, inner => joined frames (outer ++ .opening :: inner)

theorem joined_append : ∀ (frames : List (List Token)) (inner ts : List Token),
    joined frames (inner ++ ts) = joined frames inner ++ ts
  | [], _, _ => rfl
  | outer :: frames, inner, ts => by
    have h := joined_append frames (outer ++ .opening :: inner) ts
    rw [List.append_assoc] at h
    exact h

/-- The invariant of reading: every open group lacks a factor, and so does the innermost one just
if an operand is due. -/
theorem isSentence_joined {α : Type} {text : α → String} : ∀ (ts : List Token)
    (frames : List (List Token)) (inner : List Token) (operand : Bool),
    (∀ t ∈ ts, IsLineToken text t) → (∀ outer ∈ frames, LacksFactor outer) →
    (if operand then LacksFactor inner else IsSentence inner) → alternates operand ts = true →
    nesting? frames.length ts = some 0 → IsSentence (joined frames inner ++ ts)
  | [], frames, inner, operand, _, _, hin, ha, hn => by
    rcases operand with _ | _
    · have h0 : frames.length = 0 := Option.some.inj hn
      rw [List.length_eq_zero_iff.mp h0, List.append_nil]
      exact hin
    · cases ha
  | t :: ts, frames, inner, operand, hts, hf, hin, ha, hn => by
    have hrest : ∀ t ∈ ts, IsLineToken text t := fun t ht => hts t (List.mem_cons_of_mem _ ht)
    have hstep : joined frames inner ++ t :: ts = joined frames (inner ++ [t]) ++ ts := by
      rw [joined_append, List.append_assoc, List.singleton_append]
    -- induction on the tokens to come: each closes, opens or continues the innermost frame
    cases hts t (by simp) with
    | number a =>
      obtain ⟨rfl, ha⟩ := alternates_number_iff.mp ha
      rw [hstep]
      exact isSentence_joined ts frames _ false hrest hf (hin (.number (text a))) ha hn
    | operator op =>
      obtain ⟨rfl, ha⟩ := alternates_operator_iff.mp ha
      rw [hstep]
      exact isSentence_joined ts frames _ true hrest hf (lacksFactor_operator hin op) ha hn
    | opening =>
      obtain ⟨rfl, ha⟩ := alternates_opening_iff.mp ha
      rw [hstep]
      refine isSentence_joined ts (inner :: frames) [] true hrest (fun outer ho => ?_)
        lacksFactor_nil ha hn
      rcases List.mem_cons.mp ho with rfl | ho
      · exact hin
      · exact hf outer ho
    | closing =>
      obtain ⟨rfl, ha⟩ := alternates_closing_iff.mp ha
      rcases frames with _ | ⟨outer, frames⟩
      · cases hn
      · obtain ⟨e, rfl⟩ := hin
        -- a closed group is the factor that the frame around it lacked
        have hclosed : IsSentence (outer ++ .opening :: (e.tokens id ++ [.closing])) :=
          hf outer (by simp) (.group e)
        have hj : joined (outer :: frames) (e.tokens id) ++ .closing :: ts =
            joined frames (outer ++ .opening :: (e.tokens id ++ [.closing])) ++ ts := by
          rw [hstep]; rfl
        rw [hj]
        exact isSentence_joined ts frames _ false hrest
          (fun o ho => hf o (List.mem_cons_of_mem _ ho)) hclosed ha hn

/-- **What alternates and has its parentheses in pairs is a sentence.** -/
theorem isSentence_of_alternates {α : Type} {text : α → String} {ts : List Token}
    (hts : ∀ t ∈ ts, IsLineToken text t) (ha : alternates true ts = true)
    (hn : nesting? 0 ts = some 0) : IsSentence ts :=
  isSentence_joined ts [] [] true hts (by simp) lacksFactor_nil ha hn

theorem IsSentence.alternates {ts : List Token} (h : IsSentence ts) :
    alternates true ts = true := by
  obtain ⟨e, rfl⟩ := h
  exact e.alternates_sum id

end PocketCalculator
