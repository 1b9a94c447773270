import PocketCalculator.Expression.Value

/-! # The grammar of expressions

A sum is a row of products joined by `+` and `-`, a product is a row of factors joined by `*` and
`/`, and a factor is a number or a sum in parentheses. A `Phrase` is a derivation tree of this
grammar, over any type of numbers.

* `Phrase.tokens`: the tokens of a phrase in the order of a line.
* `Phrase.tree`: its operators and numbers as a binary `Tree`, the parentheses dropped.
* `Tree.postorder`: the tokens of a tree, an operator behind both its operands.
* `Tree.value?`: the value of a tree, unless a division by zero is met.
* `Phrase.signed`: a sum with a zero and a sign put before its first product. -/

namespace PocketCalculator

/-- The four operators. -/
inductive Operator where
  | add
  | subtract
  | multiply
  | divide
  deriving DecidableEq, Repr

/-- The levels of the grammar, from the loosest to the tightest. -/
inductive Level where
  | sum
  | product
  | factor
  deriving DecidableEq, Repr

/-- How tightly the operators of a level bind; a factor binds tighter than any. -/
def Level.tightness : Level → Nat
  | sum => 1
  | product => 2
  | factor => 3

namespace Operator

/-- The symbol of an operator. -/
def symbol : Operator → Char
  | add => '+'
  | subtract => '-'
  | multiply => '*'
  | divide => '/'

/-- The level of the phrases that an operator makes. -/
def level : Operator → Level
  | add | subtract => .sum
  | multiply | divide => .product

/-- The text of an operator. -/
def text (op : Operator) : String := String.singleton op.symbol

/-- The token of an operator. -/
def token (op : Operator) : Token := ⟨.operator, op.text⟩

/-- The result of an operator; there is none for a division by zero. -/
def combine? : Operator → Binary64 → Binary64 → Option Binary64
  | add, a, b => some (a + b)
  | subtract, a, b => some (a - b)
  | multiply, a, b => some (a * b)
  | divide, a, b => if b.isZero then none else some (a / b)

theorem level_add : add.level = .sum := rfl

theorem level_subtract : subtract.level = .sum := rfl

theorem level_multiply : multiply.level = .product := rfl

theorem level_divide : divide.level = .product := rfl

theorem mem_operators (op : Operator) : op.text ∈ Token.operators := by cases op <;> decide

theorem exists_of_mem_operators {text : String} (h : text ∈ Token.operators) :
    ∃ op : Operator, op.text = text := by
  simp only [Token.operators, List.mem_cons, List.not_mem_nil, or_false] at h
  rcases h with rfl | rfl | rfl | rfl
  · exact ⟨add, by decide⟩
  · exact ⟨subtract, by decide⟩
  · exact ⟨multiply, by decide⟩
  · exact ⟨divide, by decide⟩

@[simp] theorem kind_token (op : Operator) : op.token.kind = .operator := rfl

@[simp] theorem text_token (op : Operator) : op.token.text = op.text := rfl

@[simp] theorem isOperator_token (op : Operator) : op.token.isOperator = true := rfl

@[simp] theorem isInner_token (op : Operator) : op.token.isInner = true := rfl

theorem toList_text (op : Operator) : op.text.toList = [op.symbol] := String.toList_singleton _

theorem isSymbol_symbol (op : Operator) : isSymbol op.symbol = true := by cases op <;> decide

theorem precedence_text (op : Operator) : precedence op.text = .ok op.level.tightness := by
  cases op <;> rfl

/-- The operators of the tokens are these four, and dividing by zero is their only failure. -/
theorem applyOperator_text (op : Operator) (a b : Binary64) :
    applyOperator op.text a b =
      match op.combine? a b with
      | some x => .ok x
      | none => .error .divisionByZero := by
  cases op
  · rfl
  · rfl
  · rfl
  · show (if b.isZero then _ else _) = _
    simp only [combine?]
    cases b.isZero <;> rfl

end Operator

namespace Token

/-- The token of a number. -/
def number (text : String) : Token := ⟨.number, text⟩

/-- The token of an opening parenthesis. -/
def opening : Token := ⟨.leftParen, "("⟩

/-- The token of a closing parenthesis. -/
def closing : Token := ⟨.rightParen, ")"⟩

end Token

/-- The tokens of a line: numbers with the text of some `a`, operators and parentheses. -/
inductive IsLineToken {α : Type} (text : α → String) : Token → Prop where
  | number (a : α) : IsLineToken text (.number (text a))
  | operator (op : Operator) : IsLineToken text op.token
  | opening : IsLineToken text .opening
  | closing : IsLineToken text .closing

/-- The tokens in postfix order: numbers and operators. -/
inductive IsPostfixToken {α : Type} (text : α → String) : Token → Prop where
  | number (a : α) : IsPostfixToken text (.number (text a))
  | operator (op : Operator) : IsPostfixToken text op.token

/-! ### Binary trees -/

/-- Numbers joined by operators. -/
inductive Tree (α : Type) where
  | number (a : α)
  | node (op : Operator) (left right : Tree α)

namespace Tree

variable {α : Type}

/-- The tokens of a tree, an operator behind both its operands. -/
def postorder (text : α → String) : Tree α → List Token
  | number a => [.number (text a)]
  | node op left right => left.postorder text ++ right.postorder text ++ [op.token]

/-- **The value of a tree**, found from the left to the right and from the numbers up; there is
none if a division by zero is met. -/
def value? (value : α → Binary64) : Tree α → Option Binary64
  | number a => some (value a)
  | node op left right =>
    (left.value? value).bind fun a => (right.value? value).bind fun b => op.combine? a b

end Tree

/-! ### Phrases -/

/-- The derivation trees of the grammar. -/
inductive Phrase (α : Type) : Level → Type where
  | number (a : α) : Phrase α .factor
  | group (e : Phrase α .sum) : Phrase α .factor
  | factor (f : Phrase α .factor) : Phrase α .product
  | product (t : Phrase α .product) (op : Operator) (h : op.level = .product)
      (f : Phrase α .factor) : Phrase α .product
  | term (t : Phrase α .product) : Phrase α .sum
  | sum (e : Phrase α .sum) (op : Operator) (h : op.level = .sum) (t : Phrase α .product) :
      Phrase α .sum

namespace Phrase

variable {α : Type} {l : Level}

/-- The tokens of a phrase. -/
def tokens (text : α → String) : {l : Level} → Phrase α l → List Token
  | _, number a => [.number (text a)]
  | _, group e => .opening :: (e.tokens text ++ [.closing])
  | _, factor f => f.tokens text
  | _, product t op _ f => t.tokens text ++ op.token :: f.tokens text
  | _, term t => t.tokens text
  | _, sum e op _ t => e.tokens text ++ op.token :: t.tokens text

/-- The operators and numbers of a phrase. -/
def tree : {l : Level} → Phrase α l → Tree α
  | _, number a => .number a
  | _, group e => e.tree
  | _, factor f => f.tree
  | _, product t op _ f => .node op t.tree f.tree
  | _, term t => t.tree
  | _, sum e op _ t => .node op e.tree t.tree

/-- A sum with a zero and a sign before its first product. -/
def signed (zero : α) (sign : Operator) (h : sign.level = .sum) :
    {l : Level} → Phrase α l → Phrase α l
  | _, term t => sum (term (factor (number zero))) sign h t
  | _, sum e op ho t => sum (e.signed zero sign h) op ho t
  | _, f => f

theorem tokens_signed (text : α → String) (zero : α) (sign : Operator) (h : sign.level = .sum) :
    ∀ e : Phrase α .sum,
      (e.signed zero sign h).tokens text = .number (text zero) :: sign.token :: e.tokens text
  | term t => rfl
  | sum e op ho t => by
    have ih := tokens_signed text zero sign h e
    simp only [signed, tokens, ih, List.cons_append]

end Phrase

/-- **The sentences of the grammar:** the tokens of the sums. -/
def IsSentence (ts : List Token) : Prop := ∃ e : Phrase String .sum, e.tokens id = ts

end PocketCalculator
