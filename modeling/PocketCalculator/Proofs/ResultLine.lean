import PocketCalculator.Proofs.Expressions
import PocketCalculator.Proofs.ReadBack
import PocketCalculator.Proofs.Signs

/-! # Lines that continue a shown number

Behind an operand operators and operands may follow, an operand being a numeral or a group in
parentheses (`Tail`). An operator of sums joins the whole phrase, an operator of products its last
product only (`Phrase.join`). A line of a shown number and a tail comes to what the phrase comes to
in which the number itself is the first operand (`calculate_behind`).

A negative number is read as a difference from zero, of which the minus takes in the whole first
product. Two phrases of which one begins with the negative number of the other are followed along
the tail (`Negates`): a zero minus the first product is its negative up to the sign of a zero, and
the sums behind it keep this (`Negates.sameValue`). -/

namespace PocketCalculator

variable {α β : Type} {settings : Settings}

/-! ### What follows an operand -/

/-- Operators, each with an operand behind it. -/
abbrev Tail (α : Type) := List (Operator × Phrase α .factor)

/-- The tokens of a tail. -/
def Tail.tokens (text : α → String) (tail : Tail α) : List Token :=
  tail.flatMap fun next => next.1.token :: next.2.tokens text

theorem Operator.level_of_ne {op : Operator} (h : op.level ≠ .product) : op.level = .sum := by
  cases op with
  | add => rfl
  | subtract => rfl
  | multiply => exact absurd rfl h
  | divide => exact absurd rfl h

namespace Phrase

/-- A number as a phrase. -/
def operand (a : α) : Phrase α .sum := term (factor (number a))

/-- A sum with one more factor in its last product. -/
def scale : Phrase α .sum → (op : Operator) → op.level = .product → Phrase α .factor →
    Phrase α .sum
  | term t, op, h, w => term (product t op h w)
  | sum e o ho t, op, h, w => sum e o ho (product t op h w)

/-- A sum with an operator and an operand behind it. -/
def join (e : Phrase α .sum) (op : Operator) (w : Phrase α .factor) : Phrase α .sum :=
  if h : op.level = .product then e.scale op h w
  else sum e op (Operator.level_of_ne h) (factor w)

/-- A sum with all of a tail behind it. -/
def followedBy (e : Phrase α .sum) (tail : Tail α) : Phrase α .sum :=
  tail.foldl (fun e next => e.join next.1 next.2) e

/-- The same phrase of other numbers. -/
def map (f : α → β) : {l : Level} → Phrase α l → Phrase β l
  | _, number a => number (f a)
  | _, group e => group (e.map f)
  | _, factor w => factor (w.map f)
  | _, product t op h w => product (t.map f) op h (w.map f)
  | _, term t => term (t.map f)
  | _, sum e op h t => sum (e.map f) op h (t.map f)

theorem tokens_join (text : α → String) (e : Phrase α .sum) (op : Operator)
    (w : Phrase α .factor) :
    (e.join op w).tokens text = e.tokens text ++ op.token :: w.tokens text := by
  unfold join
  split
  · cases e with
    | term t => rfl
    | sum e o ho t => simp only [scale, tokens, List.append_assoc, List.cons_append]
  · rfl

theorem tokens_followedBy (text : α → String) (e : Phrase α .sum) (tail : Tail α) :
    (e.followedBy tail).tokens text = e.tokens text ++ tail.tokens text := by
  induction tail generalizing e with
  | nil => exact (List.append_nil _).symm
  | cons next tail ih =>
    have hnext : (e.followedBy (next :: tail)).tokens text =
        (e.join next.1 next.2).tokens text ++ Tail.tokens text tail := ih _
    rw [hnext, tokens_join, List.append_assoc]
    rfl

section Map
variable (f : α → β)

theorem map_join (e : Phrase α .sum) (op : Operator) (w : Phrase α .factor) :
    (e.join op w).map f = (e.map f).join op (w.map f) := by
  unfold join
  split
  · cases e <;> rfl
  · rfl

theorem map_followedBy (e : Phrase α .sum) (tail : Tail α) :
    (e.followedBy tail).map f =
      (e.map f).followedBy (tail.map fun next => (next.1, next.2.map f)) := by
  induction tail generalizing e with
  | nil => rfl
  | cons next tail ih => exact (ih _).trans (congrArg (followedBy · _) (map_join f e _ _))

theorem map_signed (zero : α) (sign : Operator) (h : sign.level = .sum) :
    ∀ e : Phrase α .sum, (e.signed zero sign h).map f = (e.map f).signed (f zero) sign h
  | term t => rfl
  | sum e op ho t => congrArg (sum · op ho (t.map f)) (map_signed zero sign h e)

end Map

theorem value?_map (f : α → Binary64) : ∀ {l : Level} (e : Phrase α l),
    (e.map f).tree.value? id = e.tree.value? f
  | _, number a => rfl
  | _, group e => value?_map f e
  | _, factor w => value?_map f w
  | _, product t op h w => by
    simp only [map, tree, Tree.value?, value?_map f t, value?_map f w]
  | _, term t => value?_map f t
  | _, sum e op h t => by
    simp only [map, tree, Tree.value?, value?_map f e, value?_map f t]

theorem value?_operator (f : α → Binary64) (v : Binary64) (op : Operator) (a : α) :
    ((operand v).followedBy
        (List.map (fun next => (next.1, next.2.map f)) [(op, number a)])).tree.value? id =
      op.combine? v (f a) := by
  have htree : ((operand v).join op (number (f a))).tree =
      .node op (.number v) (.number (f a)) := by
    unfold join
    split <;> rfl
  show ((operand v).join op (number (f a))).tree.value? id = _
  rw [htree]
  rfl

end Phrase

/-! ### A negative number in front -/

theorem combine?_neg {op : Operator} (h : op.level = .product) (x y : Binary64) :
    op.combine? x.neg y = (op.combine? x y).map Binary64.neg := by
  cases op with
  | add => cases h
  | subtract => cases h
  | multiply => exact congrArg some (Binary64.neg_mul x y)
  | divide =>
    simp only [Operator.combine?, Binary64.neg_div]
    split <;> rfl

theorem combine?_sameValue {op : Operator} (h : op.level = .sum) {x y : Binary64}
    (hxy : x.SameValue y) (z : Binary64) :
    Option.Rel Binary64.SameValue (op.combine? x z) (op.combine? y z) := by
  cases op with
  | add => exact .some (hxy.add_right z)
  | subtract => exact .some (hxy.add_right z.neg)
  | multiply => cases h
  | divide => cases h

/-- The second phrase has the negative value of the first in place of its first product. -/
inductive Negates : Phrase Binary64 .sum → Phrase Binary64 .sum → Prop where
  | term {t t' : Phrase Binary64 .product}
      (h : t'.tree.value? id = (t.tree.value? id).map Binary64.neg) : Negates (.term t) (.term t')
  | sum {e e' : Phrase Binary64 .sum} (he : Negates e e') (op : Operator) (ho : op.level = .sum)
      (t : Phrase Binary64 .product) : Negates (.sum e op ho t) (.sum e' op ho t)

namespace Negates

theorem operand (x : Binary64) : Negates (.operand x) (.operand x.neg) := .term rfl

variable {e e' : Phrase Binary64 .sum}

theorem join (h : Negates e e') (op : Operator) (w : Phrase Binary64 .factor) :
    Negates (e.join op w) (e'.join op w) := by
  unfold Phrase.join
  split
  · next hop =>
    cases h with
    | @term t t' h =>
      refine .term ?_
      simp only [Phrase.tree, Tree.value?, h]
      rcases t.tree.value? id with _ | x
      · rfl
      · rcases w.tree.value? id with _ | y
        · rfl
        · exact combine?_neg hop x y
    | sum he o ho t => exact .sum he o ho _
  · exact .sum h op _ _

theorem followedBy (h : Negates e e') (tail : Tail Binary64) :
    Negates (e.followedBy tail) (e'.followedBy tail) := by
  induction tail generalizing e e' with
  | nil => exact h
  | cons next tail ih => exact ih (h.join next.1 next.2)

/-- **A zero and a minus in front of a phrase** give it the value of the other one, up to the sign
of a zero. -/
theorem sameValue (h : Negates e e') :
    Option.Rel Binary64.SameValue
      ((e.signed (.zero false) .subtract Operator.level_subtract).tree.value? id)
      (e'.tree.value? id) := by
  induction h with
  | @term t t' h =>
    simp only [Phrase.signed, Phrase.tree, Tree.value?, h]
    rcases t.tree.value? id with _ | x
    · exact .none
    · exact .some (Binary64.sameValue_zero_sub x)
  | @sum e e' he op ho t ih =>
    simp only [Phrase.signed, Phrase.tree, Tree.value?]
    generalize (e.signed _ _ _).tree.value? id = a at ih
    generalize e'.tree.value? id = b at ih
    cases ih with
    | none => exact .none
    | @some x y hxy =>
      rcases t.tree.value? id with _ | z
      · exact .none
      · exact combine?_sameValue ho hxy z

end Negates

/-! ### The line -/

/-- **The expression of a number and a tail,** with the number itself as the first operand. -/
def continued (v : Binary64) (tail : Tail Numeral) : Phrase Binary64 .sum :=
  (Phrase.operand v).followedBy (tail.map fun next => (next.1, next.2.map Numeral.value))

theorem map_continued (n : Numeral) (tail : Tail Numeral) :
    ((Phrase.operand n).followedBy tail).map Numeral.value = continued n.value tail :=
  Phrase.map_followedBy _ _ _

theorem value?_continued (n : Numeral) (tail : Tail Numeral) :
    (((Phrase.operand n).followedBy tail).withSign none).tree.value? Numeral.value =
      (continued n.value tail).tree.value? id := by
  rw [← map_continued n tail, Phrase.value?_map, Phrase.withSign]

theorem map_withSign (e : Phrase Numeral .sum) :
    (e.withSign (some minusSign)).map Numeral.value =
      (e.map Numeral.value).signed (.zero false) .subtract Operator.level_subtract := by
  rw [← Numeral.value_zero]
  exact Phrase.map_signed Numeral.value .zero .subtract Operator.level_subtract e

/-- Behind a minus the number in front becomes the negative one, up to the sign of a zero. -/
theorem sameValue_continued (n : Numeral) (tail : Tail Numeral) :
    Option.Rel Binary64.SameValue
      ((((Phrase.operand n).followedBy tail).withSign (some minusSign)).tree.value? Numeral.value)
      ((continued n.value.neg tail).tree.value? id) := by
  have h : Negates (continued n.value tail) (continued n.value.neg tail) :=
    (Negates.operand n.value).followedBy _
  have hsame := h.sameValue
  rw [← map_continued n tail, ← map_withSign, Phrase.value?_map] at hsame
  exact hsame

theorem written_continued (n : Numeral) {tail : Tail Numeral} {body : List Char}
    (hbody : Written (tail.tokens Numeral.string) body) :
    Written (((Phrase.operand n).followedBy tail).tokens Numeral.string) (n.text ++ body) := by
  rw [Phrase.tokens_followedBy, ← n.toList_string]
  exact .cons hbody

theorem written_operand (n : Numeral) :
    Written ((Phrase.operand n).tokens Numeral.string) n.text := by
  have h : Written [.number n.string] (n.string.toList ++ []) := .cons .nil
  rwa [List.append_nil, n.toList_string] at h

theorem Settles.of_rel (hp : 0 ≤ settings.displayDecimals) {x y : Option Binary64}
    (h : Option.Rel Binary64.SameValue x y) {outcome : Outcome} (hs : Settles settings x outcome) :
    Settles settings y outcome := by
  cases h with
  | none => exact hs
  | some hxy => exact hs.of_sameValue hp hxy

/-- **A line of a shown number and a tail** comes to what the expression of the number itself and
the tail comes to. -/
theorem calculate_behind (hp : 0 ≤ settings.displayDecimals) {v : Binary64}
    (hfin : v.isFinite = true) (hz : v ≠ .zero true) (tail : Tail Numeral) {body : List Char}
    (hbody : Written (tail.tokens Numeral.string) body) {line : String}
    (hline : line.toList = v.shown.toList ++ body) :
    ∃ outcome, calculate settings line = .ok outcome ∧
      Settles settings ((continued v tail).tree.value? id) outcome := by
  obtain ⟨s, m, hm, rfl⟩ := Binary64.exists_of_isFinite hfin
  obtain ⟨n, htext, hvalue⟩ := Binary64.exists_shown s hm
  have hwritten := written_continued n hbody
  rw [htext] at hline
  rcases hs : (s && m != 0) with _ | _
  · rw [hs] at hline
    have hself : n.value = .finite s m hm := by
      rcases s with _ | _
      · exact hvalue
      · obtain rfl : m = 0 := by simpa using hs
        exact absurd rfl hz
    obtain ⟨outcome, hcalc, hsettles⟩ := calculate_of_tokens Numeral.ofText?_string hp
      (tokensOf_written none _ hwritten hline)
    rw [value?_continued, hself] at hsettles
    exact ⟨outcome, hcalc, hsettles⟩
  · rw [hs] at hline
    obtain ⟨rfl, -⟩ := Bool.and_eq_true_iff.mp hs
    obtain ⟨outcome, hcalc, hsettles⟩ := calculate_of_tokens Numeral.ofText?_string hp
      (tokensOf_written (some minusSign) _ hwritten hline)
    have hrel := sameValue_continued n tail
    rw [hvalue] at hrel
    exact ⟨outcome, hcalc, hsettles.of_rel hp hrel⟩

theorem written_operator (op : Operator) (w : Numeral) :
    Written (Tail.tokens Numeral.string [(op, .number w)]) (op.symbol :: w.text) := by
  have h : Written [op.token, .number w.string] (op.text.toList ++ (w.string.toList ++ [])) :=
    .cons (.cons .nil)
  rwa [op.toList_text, w.toList_string, List.append_nil] at h

/-- **A line of a shown number, an operator and a numeral** comes to what the operator makes of
the number. -/
theorem calculate_shown (hp : 0 ≤ settings.displayDecimals) (s : Bool) {m : Nat}
    (hm : Representable m) (h0 : m ≠ 0) (op : Operator) (w : Numeral) :
    ∃ outcome, calculate settings ((Binary64.finite s m hm).shown ++ op.text ++ w.string) =
        .ok outcome ∧ Settles settings (op.combine? (.finite s m hm) w.value) outcome := by
  have hz : Binary64.finite s m hm ≠ .zero true := by
    intro h
    cases h
    exact h0 rfl
  have hline : ((Binary64.finite s m hm).shown ++ op.text ++ w.string).toList =
      (Binary64.finite s m hm).shown.toList ++ op.symbol :: w.text := by
    rw [String.toList_append, String.toList_append, op.toList_text, w.toList_string,
      List.append_assoc, List.singleton_append]
  obtain ⟨outcome, hcalc, hsettles⟩ := calculate_behind hp rfl hz _ (written_operator op w) hline
  rw [continued, Phrase.value?_operator] at hsettles
  exact ⟨outcome, hcalc, hsettles⟩

/-- **Continuing a result:** whatever line has given a value, the text that shows the value, with
operators and operands behind it, comes to what the expression with the value itself in front comes
to. A negative value is one operand, although its minus is read as a difference from zero. -/
theorem calculate_continued (hp : 0 ≤ settings.displayDecimals) {earlier : String} {v : Binary64}
    (hv : calculate settings earlier = .ok (.value v)) (tail : Tail Numeral) {body : List Char}
    (hbody : Written (tail.tokens Numeral.string) body) {line : String}
    (hline : line.toList = v.shown.toList ++ body) :
    ∃ outcome, calculate settings line = .ok outcome ∧
      Settles settings ((continued v tail).tree.value? id) outcome := by
  obtain ⟨outcome, hcalc, hout⟩ := exists_calculate hp earlier
  rw [hv] at hcalc
  cases hcalc
  cases hout with
  | value hfin hz => exact calculate_behind hp hfin hz tail hbody hline

/-- The double nearest to `-0.66666667`. -/
def negativeTwoThirds : Binary64 := Decimal.toBinary64 ⟨true, 66666667, -8⟩

theorem calculate_negativeTwoThirds :
    calculate .standard "-2/3" = .ok (.value negativeTwoThirds) :=
  eq_ok_of_toOption (by decide +kernel)

/-- The tail `* (2 + 1) - 4`. -/
def threefoldLessFour : Tail Numeral :=
  [(.multiply, .group (.sum (.operand (.digit 2)) .add Operator.level_add
      (.factor (.number (.digit 1))))),
    (.subtract, .number (.digit 4))]

theorem calculate_continued_negative :
    0 ≤ Settings.standard.displayDecimals ∧
      calculate .standard "-2/3" = .ok (.value negativeTwoThirds) ∧
      ∃ outcome, calculate .standard "-0.66666667 *(2+1) - 4" = .ok outcome ∧
        Settles .standard ((continued negativeTwoThirds threefoldLessFour).tree.value? id)
          outcome := by
  have hp : 0 ≤ Settings.standard.displayDecimals := by decide
  have hshown : negativeTwoThirds.shown = "-0.66666667" := by decide +kernel
  have none : ∀ c ∈ [], isSkipped c = true := by simp
  have blank : ∀ c ∈ [' '], isSkipped c = true := forall_of_all rfl
  have hwritten : Written (threefoldLessFour.tokens Numeral.string) " *(2+1) - 4".toList :=
    .token blank (.token none (.token none (.token none (.token none (.token none
      (.token blank (.token blank (.done none))))))))
  refine ⟨hp, calculate_negativeTwoThirds,
    calculate_continued hp calculate_negativeTwoThirds threefoldLessFour hwritten ?_⟩
  rw [hshown]
  rfl

end PocketCalculator
