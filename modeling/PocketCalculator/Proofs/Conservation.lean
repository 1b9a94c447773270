import PocketCalculator.Proofs.Computations
import PocketCalculator.Proofs.Conversion
import PocketCalculator.Proofs.Numeral
import PocketCalculator.Proofs.Postorder

/-! # What the conversion keeps

The conversion may be given any tokens, whether they are a sentence or not. Where it succeeds it
has dropped the parentheses and nothing else. One token lets some of the stack come out and puts
something onto it (`Moves`), and no such step loses a number or an operator (`Moves.perm`). So what
comes out in the end is what waited and what was still to come (`perm_of_arrange`); and as a number
never waits, the numbers come out in their order (`filter_isNumber_of_arrange`). -/

namespace PocketCalculator

/-! ### One token -/

/-- What may wait on the stack, whatever its text: operators and opening parentheses. -/
def Token.canWait (t : Token) : Bool := t.isOperator || !t.isInner

theorem isOperator_of_canWait {t : Token} (hw : t.canWait = true) (hi : t.isInner = true) :
    t.isOperator = true := by
  simpa [Token.canWait, hi] using hw

section Operators
variable {ops : List Token} (hops : ∀ u ∈ ops, u.isOperator = true)
include hops

theorem filter_comesOut_of_operators : ops.filter Token.comesOut = ops :=
  List.filter_eq_self.mpr fun u hu => by simp [Token.comesOut, hops u hu]

theorem filter_isNumber_of_operators : ops.filter Token.isNumber = [] :=
  List.filter_eq_nil_iff.mpr fun u hu => by
    have hop : u.kind = .operator := of_decide_eq_true (hops u hu)
    simp [Token.isNumber, hop]

end Operators

/-- **One token of the conversion:** the stack before it, what comes out, and the stack behind. -/
inductive Moves (t : Token) : List Token → List Token → List Token → Prop where
  | number {stack : List Token} (ht : t.kind = .number) : Moves t stack [t] stack
  | operator {released rest : List Token} (ht : t.kind = .operator)
      (hops : ∀ u ∈ released, u.isOperator = true) :
      Moves t (released ++ rest) released (t :: rest)
  | opening {stack : List Token} (ht : t.kind = .leftParen) : Moves t stack [] (t :: stack)
  | closing {inner rest : List Token} {pair : Token} (ht : t.kind = .rightParen)
      (hpair : pair.kind = .leftParen) (hops : ∀ u ∈ inner, u.isOperator = true) :
      Moves t (inner ++ pair :: rest) inner rest

theorem isOperator_of_releaseTighter {operator : Token} {stack released rest : List Token}
    (h : releaseTighter operator stack = .ok (released, rest)) :
    ∀ u ∈ released, u.isOperator = true := by
  induction stack generalizing released with
  | nil => cases h; simp
  | cons top stack ih =>
    unfold releaseTighter at h
    split at h
    · next hop =>
      obtain ⟨p, -, h⟩ := exists_of_bind_eq_ok h
      obtain ⟨q, -, h⟩ := exists_of_bind_eq_ok h
      split at h
      · obtain ⟨⟨others, below⟩, hothers, h⟩ := exists_of_bind_eq_ok h
        cases h
        intro u hu
        rcases List.mem_cons.mp hu with rfl | hu
        · exact hop
        · exact ih hothers u hu
      · cases h; simp
    · cases h; simp

theorem exists_pair {stack rest : List Token} {pair : Token}
    (h : stack.dropWhile Token.isInner = pair :: rest) :
    stack = stack.takeWhile Token.isInner ++ pair :: rest ∧ pair.kind = .leftParen := by
  have hstack := List.takeWhile_append_dropWhile (p := Token.isInner) (l := stack)
  have hpair := List.head?_dropWhile_not Token.isInner stack
  rw [h] at hstack hpair
  exact ⟨hstack.symm, by simpa [Token.isInner] using hpair⟩

/-- **The step of a conversion that succeeds.** -/
theorem exists_moves {stack ts out : List Token} {t : Token}
    (hw : ∀ u ∈ stack, u.canWait = true) (h : arrange stack (t :: ts) = .ok out) :
    ∃ released stack' rest, out = released ++ rest ∧ Moves t stack released stack' ∧
      arrange stack' ts = .ok rest := by
  unfold arrange at h
  split at h
  · next hk =>
    obtain ⟨rest, hrest, rfl⟩ := exists_of_map_eq_ok h
    exact ⟨[t], stack, rest, rfl, .number hk, hrest⟩
  · next hk =>
    obtain ⟨⟨released, below⟩, hr, h⟩ := exists_of_bind_eq_ok h
    obtain ⟨rest, hrest, rfl⟩ := exists_of_map_eq_ok h
    obtain rfl := append_of_releaseTighter hr
    exact ⟨released, t :: below, rest, rfl, .operator hk (isOperator_of_releaseTighter hr), hrest⟩
  · next hk => exact ⟨[], t :: stack, out, rfl, .opening hk, h⟩
  · next hk =>
    split at h
    · cases h
    · next pair below hd =>
      obtain ⟨rest, hrest, rfl⟩ := exists_of_map_eq_ok h
      obtain ⟨hstack, hpair⟩ := exists_pair hd
      have hops : ∀ u ∈ stack.takeWhile Token.isInner, u.isOperator = true := fun u hu =>
        isOperator_of_canWait (hw u ((List.takeWhile_sublist _).mem hu))
          (List.all_eq_true.mp List.all_takeWhile u hu)
      refine ⟨_, below, rest, rfl, ?_, hrest⟩
      have hmoves : Moves t (stack.takeWhile Token.isInner ++ pair :: below) _ below :=
        .closing hk hpair hops
      rwa [← hstack] at hmoves

namespace Moves

variable {t : Token} {stack released stack' : List Token}

theorem canWait (h : Moves t stack released stack') (hw : ∀ u ∈ stack, u.canWait = true) :
    ∀ u ∈ stack', u.canWait = true := by
  cases h with
  | number => exact hw
  | operator ht =>
    intro u hu
    rcases List.mem_cons.mp hu with rfl | hu
    · simp [Token.canWait, Token.isOperator, ht]
    · exact hw u (List.mem_append_right _ hu)
  | opening ht =>
    intro u hu
    rcases List.mem_cons.mp hu with rfl | hu
    · simp [Token.canWait, Token.isInner, ht]
    · exact hw u hu
  | closing => exact fun u hu => hw u (List.mem_append_right _ (List.mem_cons_of_mem _ hu))

theorem released_cases (h : Moves t stack released stack') :
    (t.kind = .number ∧ released = [t]) ∨
      (t.kind ≠ .number ∧ ∀ u ∈ released, u.isOperator = true) := by
  cases h with
  | number ht => exact Or.inl ⟨ht, rfl⟩
  | operator ht hops => exact Or.inr ⟨by simp [ht], hops⟩
  | opening ht => exact Or.inr ⟨by simp [ht], by simp⟩
  | closing ht _ hops => exact Or.inr ⟨by simp [ht], hops⟩

theorem filter_comesOut (h : Moves t stack released stack') :
    released.filter Token.comesOut = released := by
  rcases h.released_cases with ⟨ht, rfl⟩ | ⟨-, hops⟩
  · simp [Token.comesOut, Token.isNumber, ht]
  · exact filter_comesOut_of_operators hops

theorem filter_isNumber (h : Moves t stack released stack') :
    released.filter Token.isNumber = [t].filter Token.isNumber := by
  rcases h.released_cases with ⟨ht, rfl⟩ | ⟨ht, hops⟩
  · rfl
  · rw [filter_isNumber_of_operators hops]
    simp [Token.isNumber, ht]

/-- **No number or operator is lost,** and none is made. -/
theorem perm (h : Moves t stack released stack') :
    ((released ++ stack').filter Token.comesOut).Perm ((t :: stack).filter Token.comesOut) := by
  cases h with
  | number => exact .refl _
  | operator => exact List.perm_middle.filter _
  | opening => exact .refl _
  | @closing inner rest pair ht hpair =>
    have hno : t.comesOut = false := by simp [Token.comesOut, Token.isNumber, Token.isOperator, ht]
    have hno' : pair.comesOut = false := by
      simp [Token.comesOut, Token.isNumber, Token.isOperator, hpair]
    simp [hno, hno']

end Moves

/-! ### A whole conversion -/

theorem arrange_nil_eq_ok {stack out : List Token} (hw : ∀ u ∈ stack, u.canWait = true)
    (h : arrange stack [] = .ok out) : out = stack ∧ ∀ u ∈ stack, u.isOperator = true := by
  unfold arrange at h
  split at h
  · next hall =>
    cases h
    exact ⟨rfl, fun u hu => isOperator_of_canWait (hw u hu) (List.all_eq_true.mp hall u hu)⟩
  · cases h

/-- **What comes out** are the numbers and operators that waited and those still to come. -/
theorem perm_of_arrange : ∀ {ts stack out : List Token}, (∀ u ∈ stack, u.canWait = true) →
    arrange stack ts = .ok out → out.Perm ((stack ++ ts).filter Token.comesOut)
  | [], stack, out, hw, h => by
    obtain ⟨rfl, hops⟩ := arrange_nil_eq_ok hw h
    rw [List.append_nil, filter_comesOut_of_operators hops]
  | t :: ts, stack, out, hw, h => by
    obtain ⟨released, stack', rest, rfl, hmoves, hrest⟩ := exists_moves hw h
    have ih := perm_of_arrange (hmoves.canWait hw) hrest
    calc List.Perm (released ++ rest) (released ++ (stack' ++ ts).filter Token.comesOut) :=
          ih.append_left _
      _ = (released ++ stack').filter Token.comesOut ++ ts.filter Token.comesOut := by
          simp only [List.filter_append, hmoves.filter_comesOut, List.append_assoc]
      List.Perm _ ((t :: stack).filter Token.comesOut ++ ts.filter Token.comesOut) :=
          hmoves.perm.append_right _
      _ = (t :: (stack ++ ts)).filter Token.comesOut := by
          rw [← List.filter_append, List.cons_append]
      List.Perm _ ((stack ++ t :: ts).filter Token.comesOut) := List.perm_middle.symm.filter _

/-- **The numbers keep their order.** -/
theorem filter_isNumber_of_arrange : ∀ {ts stack out : List Token},
    (∀ u ∈ stack, u.canWait = true) → arrange stack ts = .ok out →
    out.filter Token.isNumber = ts.filter Token.isNumber
  | [], stack, out, hw, h => by
    obtain ⟨rfl, hops⟩ := arrange_nil_eq_ok hw h
    exact filter_isNumber_of_operators hops
  | t :: ts, stack, out, hw, h => by
    obtain ⟨released, stack', rest, rfl, hmoves, hrest⟩ := exists_moves hw h
    rw [List.filter_append, hmoves.filter_isNumber,
      filter_isNumber_of_arrange (hmoves.canWait hw) hrest, ← List.filter_append]
    rfl

/-! ### Numbers and operators -/

theorem Tree.countP_postorder {α : Type} (text : α → String) : ∀ t : Tree α,
    (t.postorder text).countP Token.isNumber = (t.postorder text).countP Token.isOperator + 1
  | number a => rfl
  | node op left right => by
    have hl := countP_postorder text left
    have hr := countP_postorder text right
    have hn : [op.token].countP Token.isNumber = 0 := rfl
    have ho : [op.token].countP Token.isOperator = 1 := rfl
    simp only [postorder, List.countP_append, hn, ho]
    omega

theorem countP_of_perm {ts out : List Token} {p : Token → Bool}
    (hp : ∀ t, p t = true → t.comesOut = true) (h : out.Perm (ts.filter Token.comesOut)) :
    out.countP p = ts.countP p := by
  rw [h.countP_eq, List.countP_filter]
  refine List.countP_congr fun t _ => ?_
  simpa using hp t

/-- **The conversion keeps everything but the parentheses,** for any tokens on which it succeeds.
No parenthesis comes out; every number and every operator comes out as often as it went in; and the
numbers come out in their order. So tokens whose conversion has a value have one number more than
they have operators. -/
theorem conserved_by_conversion {ts out : List Token} (h : toPostfix ts = .ok out) :
    (∀ t ∈ out, t.kind ≠ .leftParen ∧ t.kind ≠ .rightParen) ∧
      (∀ t : Token, t.kind = .number ∨ t.kind = .operator → out.count t = ts.count t) ∧
      out.filter Token.isNumber = ts.filter Token.isNumber ∧
      ∀ x, postfixValue out = .ok x →
        ts.countP Token.isNumber = ts.countP Token.isOperator + 1 := by
  have hnone : ∀ u ∈ ([] : List Token), u.canWait = true := by simp
  have hperm : out.Perm (ts.filter Token.comesOut) := perm_of_arrange hnone h
  refine ⟨fun t ht => ?_, fun t ht => ?_, filter_isNumber_of_arrange hnone h, fun x hx => ?_⟩
  · have hcomes := (List.mem_filter.mp (hperm.mem_iff.mp ht)).2
    constructor <;> intro hk <;>
      simp [Token.comesOut, Token.isNumber, Token.isOperator, hk] at hcomes
  · refine (hperm.count_eq t).trans (List.count_filter ?_)
    simpa [Token.comesOut, Token.isNumber, Token.isOperator] using ht
  · obtain ⟨t, rfl, -⟩ := exists_tree_of_postfixValue hx
    rw [← countP_of_perm (by simp +contextual [Token.comesOut]) hperm,
      ← countP_of_perm (by simp +contextual [Token.comesOut]) hperm]
    exact t.countP_postorder Legible.text

/-- The tokens of `2 ( 3 * ) ( ) 4 +`, with an operator at the end of its group and of the line. -/
def scatteredTokens : List Token :=
  [.number "2", .opening, .number "3", Operator.multiply.token, .closing, .opening, .closing,
    .number "4", Operator.add.token]

/-- The sum of `2 * 3` and `4`. -/
def scatteredTree : Tree Numeral :=
  .node .add (.node .multiply (.number (.digit 2)) (.number (.digit 3))) (.number (.digit 4))

theorem conserved_by_conversion_scattered :
    toPostfix scatteredTokens = .ok (scatteredTree.postorder Numeral.string) ∧
      (∃ x, postfixValue (scatteredTree.postorder Numeral.string) = .ok x) ∧
      (∀ t ∈ scatteredTree.postorder Numeral.string, t.kind ≠ .leftParen ∧ t.kind ≠ .rightParen) ∧
      (∀ t : Token, t.kind = .number ∨ t.kind = .operator →
        (scatteredTree.postorder Numeral.string).count t = scatteredTokens.count t) ∧
      (scatteredTree.postorder Numeral.string).filter Token.isNumber =
        scatteredTokens.filter Token.isNumber ∧
      ∀ x, postfixValue (scatteredTree.postorder Numeral.string) = .ok x →
        scatteredTokens.countP Token.isNumber = scatteredTokens.countP Token.isOperator + 1 := by
  have hvalue : ∃ x, scatteredTree.value? Numeral.value = some x ∧ x.isFinite = true :=
    ⟨_, rfl, by decide +kernel⟩
  obtain ⟨x, hx, hfin⟩ := hvalue
  have hok : postfixValue (scatteredTree.postorder Numeral.string) = .ok x := by
    rw [postfixValue_postorder Numeral.ofText?_string, hx]
    exact if_pos hfin
  exact ⟨rfl, ⟨x, hok⟩, conserved_by_conversion rfl⟩

end PocketCalculator
