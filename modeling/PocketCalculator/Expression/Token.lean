/-! # Expression: tokens of a line

A token is a numeral or one of the six symbols. Everything else in a line is skipped.

* `numeralPrefix`: the numeral at the front of a text, digits with an optional point.
* `lexemes`: the texts of the tokens of a line, from left to right, each as long as possible.
* `normalizeSign`: a line that begins with a sign gets a zero in front of it. -/

namespace PocketCalculator

/-- What a token stands for. -/
inductive TokenKind where
  | number
  | operator
  | leftParen
  | rightParen
  deriving DecidableEq, Repr

/-- A token: what it stands for, and its text. -/
structure Token where
  kind : TokenKind
  text : String
  deriving DecidableEq, Repr

namespace Token

/-- The texts of the four operators. -/
def operators : List String := ["+", "-", "*", "/"]

/-- The token that a text calls for; a text that is no symbol counts as a number. -/
def ofText (text : String) : Token :=
  if text ∈ operators then ⟨.operator, text⟩
  else if text = "(" then ⟨.leftParen, text⟩
  else if text = ")" then ⟨.rightParen, text⟩
  else ⟨.number, text⟩

/-- Whether the token is an operand. -/
def isNumber (t : Token) : Bool := t.kind = .number

/-- Whether the token is an operator. -/
def isOperator (t : Token) : Bool := t.kind = .operator

end Token

/-! ### The scan -/

/-- The characters that are tokens by themselves. -/
def isSymbol (c : Char) : Bool :=
  c = '+' || c = '-' || c = '*' || c = '/' || c = '(' || c = ')'

/-- The numeral at the front: digits, a point and digits, with a digit on one side of the point. -/
def numeralPrefix (cs : List Char) : List Char :=
  let whole := cs.takeWhile Char.isDigit
  match cs.dropWhile Char.isDigit with
  | '.' :: rest =>
    let fraction := rest.takeWhile Char.isDigit
    if whole = [] ∧ fraction = [] then [] else whole ++ '.' :: fraction
  | _ => whole

/-- A numeral at the front of a text is a prefix of it. -/
theorem numeralPrefix_prefix (cs : List Char) : numeralPrefix cs <+: cs := by
  have hcs := List.takeWhile_append_dropWhile (p := Char.isDigit) (l := cs)
  unfold numeralPrefix
  split
  · next rest heq =>
    rw [heq] at hcs
    simp only
    split
    · exact List.nil_prefix
    · refine ⟨rest.dropWhile Char.isDigit, ?_⟩
      rw [List.append_assoc, List.cons_append, List.takeWhile_append_dropWhile, hcs]
  · exact List.takeWhile_prefix _

/-- The texts of the tokens of a line; a character that starts none is skipped. -/
def lexemes : List Char → List (List Char)
  | [] => []
  | c :: rest =>
    if isSymbol c then [c] :: lexemes rest
    else
      match numeralPrefix (c :: rest) with
      | [] => lexemes rest
      | d :: ds => (d :: ds) :: lexemes (rest.drop ds.length)
termination_by cs => cs.length
decreasing_by
  all_goals simp only [List.length_cons, List.length_drop]; omega

/-- A zero in front of a sign that begins a line. -/
def withLeadingZero : List Char → List Char
  | [] => []
  | c :: rest => if c = '+' ∨ c = '-' then '0' :: c :: rest else c :: rest

/-- A line that begins with a sign has a zero put in front of it. -/
def normalizeSign (line : String) : String := String.ofList (withLeadingZero line.toList)

/-- The tokens of a line. -/
def tokensOf (line : String) : List Token :=
  (lexemes (withLeadingZero line.toList)).map fun text => Token.ofText (String.ofList text)

end PocketCalculator
