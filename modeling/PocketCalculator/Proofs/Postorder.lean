import PocketCalculator.Proofs.Computations
import PocketCalculator.Proofs.Machine

/-! # Which tokens have a value

The tokens may be of any kinds and carry any texts. If their stack of values comes to an end, they
are numbers that can be read and the four operators (`isPostfixToken_of_foldlM`), and so the
postorder of a tree. The tree is the only one (`Tree.postorder_injective`): the last token of a
postorder tells the root, and no postorder is the end of another one.

* `Legible`: the texts that are read as a double, with that double.
* `Tree.result`: the value of a tree where nothing is refused, divisions by zero included.
* `Tree.NeverByZero`: no division of a tree has a right operand of value zero.
* `postfixValue_iff_postorder`: the tokens with a value are the postorders of such trees. -/

namespace PocketCalculator

/-! ### The value of a tree -/

/-- The result of an operator, a division by zero included. -/
def Operator.result : Operator → Binary64 → Binary64 → Binary64
  | add, a, b => a + b
  | subtract, a, b => a - b
  | multiply, a, b => a * b
  | divide, a, b => a / b

theorem Operator.combine?_eq_some_iff {op : Operator} {a b x : Binary64} :
    op.combine? a b = some x ↔ (op = .divide → b.isZero = false) ∧ op.result a b = x := by
  cases op with
  | add | subtract | multiply => simp [combine?, result]
  | divide => cases hb : b.isZero <;> simp [combine?, result, hb]

theorem Operator.token_inj {op op' : Operator} : op.token = op'.token → op = op' := by
  cases op <;> cases op' <;> decide

theorem mem_operators_of_applyOperator {text : String} {a b x : Binary64}
    (h : applyOperator text a b = .ok x) : text ∈ Token.operators := by
  refine Decidable.byContradiction fun hno => ?_
  simp only [Token.operators, List.mem_cons, List.not_mem_nil, or_false, not_or] at hno
  obtain ⟨hadd, hsub, hmul, hdiv⟩ := hno
  rw [applyOperator, if_neg hadd, if_neg hsub, if_neg hmul, if_neg hdiv] at h
  cases h

namespace Tree

variable {α : Type}

section Value
variable (value : α → Binary64)

/-- The value of a tree from the numbers up, divisions by zero included. -/
def result : Tree α → Binary64
  | number a => value a
  | node op left right => op.result left.result right.result

/-- No division of the tree has a right operand of value zero. -/
def NeverByZero : Tree α → Prop
  | number _ => True
  | node op left right =>
    left.NeverByZero ∧ right.NeverByZero ∧
      (op = .divide → (right.result value).isZero = false)

end Value

/-- **The value of a tree** is there just if no division by zero is. -/
theorem value?_eq_some_iff {value : α → Binary64} : ∀ {t : Tree α} {x : Binary64},
    t.value? value = some x ↔ t.NeverByZero value ∧ t.result value = x
  | number a, x => by simp [value?, NeverByZero, result]
  | node op left right, x => by
    simp only [value?, NeverByZero, result, Option.bind_eq_some_iff, value?_eq_some_iff,
      Operator.combine?_eq_some_iff]
    constructor
    · rintro ⟨_, ⟨hl, rfl⟩, _, ⟨hr, rfl⟩, hop, rfl⟩
      exact ⟨⟨hl, hr, hop⟩, rfl⟩
    · rintro ⟨⟨hl, hr, hop⟩, rfl⟩
      exact ⟨_, ⟨hl, rfl⟩, _, ⟨hr, rfl⟩, hop, rfl⟩

/-! ### The tree of a postorder -/

section Unique
variable {text : α → String} (hinj : ∀ a b, text a = text b → a = b)
include hinj

theorem append_postorder_inj : ∀ {t t' : Tree α} {before before' : List Token},
    before ++ t.postorder text = before' ++ t'.postorder text → before = before' ∧ t = t'
  | number a, number a', before, before', h => by
    obtain ⟨hbefore, hlast⟩ := List.append_inj' h rfl
    have htext : text a = text a' := congrArg Token.text (List.cons.inj hlast).1
    exact ⟨hbefore, congrArg number (hinj a a' htext)⟩
  | number a, node op l r, before, before', h => by
    rw [postorder, postorder, ← List.append_assoc] at h
    have hlast := (List.append_inj' h rfl).2
    cases hlast
  | node op l r, number a, before, before', h => by
    rw [postorder, postorder, ← List.append_assoc] at h
    have hlast := (List.append_inj' h rfl).2
    cases hlast
  | node op l r, node op' l' r', before, before', h => by
    simp only [postorder, ← List.append_assoc] at h
    obtain ⟨hoperands, hlast⟩ := List.append_inj' h rfl
    obtain rfl := Operator.token_inj (List.cons.inj hlast).1
    -- the right operand ends where the operator stands, the left one where the right one begins
    obtain ⟨hleft, rfl⟩ := append_postorder_inj hoperands
    obtain ⟨hbefore, rfl⟩ := append_postorder_inj hleft
    exact ⟨hbefore, rfl⟩

/-- **A postorder is that of one tree only.** -/
theorem postorder_injective {t t' : Tree α} (h : t.postorder text = t'.postorder text) :
    t = t' := by
  have hrow : [] ++ t.postorder text = [] ++ t'.postorder text := h
  exact (append_postorder_inj hinj hrow).2

end Unique

end Tree

/-! ### Tokens of any kind -/

/-- A text that is read as a double. -/
structure Legible where
  text : String
  value : Binary64
  ofText?_text : Binary64.ofText? text = some value

namespace Legible

theorem ext_text : ∀ a b : Legible, a.text = b.text → a = b
  | ⟨text, x, hx⟩, ⟨_, y, hy⟩, h => by
    obtain rfl : text = _ := h
    obtain rfl : x = y := Option.some.inj (hx.symm.trans hy)
    rfl

end Legible

theorem isPostfixToken_of_stackStep {stack next : List Binary64} {t : Token}
    (h : stackStep stack t = .ok next) : IsPostfixToken Legible.text t := by
  obtain ⟨kind, text⟩ := t
  cases kind with
  | number =>
    rcases hx : Binary64.ofText? text with _ | x
    · simp only [stackStep, hx] at h
      cases h
    · exact IsPostfixToken.number (Legible.mk text x hx)
  | operator =>
    rcases stack with _ | ⟨b, _ | ⟨a, rest⟩⟩
    · cases h
    · cases h
    · rcases hx : applyOperator text a b with cause | x
      · simp only [stackStep, hx] at h
        cases h
      · obtain ⟨op, rfl⟩ := Operator.exists_of_mem_operators (mem_operators_of_applyOperator hx)
        exact .operator op
  | leftParen => cases h
  | rightParen => cases h

theorem isPostfixToken_of_foldlM : ∀ {ts : List Token} {stack final : List Binary64},
    ts.foldlM stackStep stack = .ok final → ∀ t ∈ ts, IsPostfixToken Legible.text t
  | [], _, _, _, _, ht => by cases ht
  | t :: ts, stack, final, h, u, hu => by
    rw [List.foldlM_cons] at h
    obtain ⟨next, hstep, h⟩ := exists_of_bind_eq_ok h
    rcases List.mem_cons.mp hu with rfl | hu
    · exact isPostfixToken_of_stackStep hstep
    · exact isPostfixToken_of_foldlM h u hu

/-- **Tokens with a value are a postorder.** -/
theorem exists_tree_of_postfixValue {ts : List Token} {x : Binary64} (h : postfixValue ts = .ok x) :
    ∃ t : Tree Legible, t.postorder Legible.text = ts ∧ t.value? Legible.value = some x ∧
      x.isFinite = true := by
  obtain ⟨final, hrun, -⟩ := exists_of_bind_eq_ok h
  exact (postfixValue_eq_ok_iff Legible.ofText?_text (isPostfixToken_of_foldlM hrun)).mp h

/-- **The tokens with a value.** Tokens of any kinds and texts have the value `x` just if they are
the postorder of a tree of numbers that can be read and of operators, no division of which is by
zero, and `x` is the value of the tree and finite. They are the postorder of no other tree. -/
theorem postfixValue_iff_postorder (ts : List Token) :
    (∀ x, postfixValue ts = .ok x ↔
      ∃ t : Tree Legible, t.postorder Legible.text = ts ∧ t.NeverByZero Legible.value ∧
        t.result Legible.value = x ∧ x.isFinite = true) ∧
      ∀ t t' : Tree Legible, t.postorder Legible.text = ts → t'.postorder Legible.text = ts →
        t = t' := by
  refine ⟨fun x => ⟨fun h => ?_, ?_⟩, fun t t' h h' => ?_⟩
  · obtain ⟨t, ht, hvalue, hfin⟩ := exists_tree_of_postfixValue h
    obtain ⟨hzero, hresult⟩ := Tree.value?_eq_some_iff.mp hvalue
    exact ⟨t, ht, hzero, hresult, hfin⟩
  · rintro ⟨t, rfl, hzero, hresult, hfin⟩
    have hvalue := Tree.value?_eq_some_iff.mpr ⟨hzero, hresult⟩
    rw [postfixValue_postorder Legible.ofText?_text, hvalue]
    simp only [if_pos hfin]
  · exact Tree.postorder_injective Legible.ext_text (h.trans h'.symm)

end PocketCalculator
