import PocketCalculator.Decimal.Reading
import PocketCalculator.Json.Basic

/-! # Json: tokens of a written value

`Json.scan` splits a text into brackets, separators and scalars. What is no token becomes
`JsonToken.invalid`, at which the text ends; a whole number with too many digits becomes a token of
its own, so that the first fault of a text is known by its place. -/

namespace PocketCalculator

/-- A token of a written value. -/
inductive JsonToken where
  | openArray
  | closeArray
  | openObject
  | closeObject
  | comma
  | colon
  /-- A value without parts; a text may also be the name of a field. -/
  | scalar (value : Json)
  /-- A whole number of more digits than are read. -/
  | tooLong (digits : Nat)
  | invalid

namespace Json

/-- The value of a hexadecimal digit. -/
def hexValue? (c : Char) : Option Nat :=
  if '0' ≤ c ∧ c ≤ '9' then some (c.toNat - 48)
  else if 'a' ≤ c ∧ c ≤ 'f' then some (c.toNat - 87)
  else if 'A' ≤ c ∧ c ≤ 'F' then some (c.toNat - 55)
  else none

/-- The unit of four hexadecimal digits. -/
def hexUnit? (a b c d : Char) : Option UInt16 := do
  return ((((← hexValue? a) * 16 + (← hexValue? b)) * 16 + (← hexValue? c)) * 16 +
    (← hexValue? d)).toUInt16

/-- The unit of an escape of one letter. -/
def shortEscape? (c : Char) : Option UInt16 :=
  ([('"', 0x22), ('\\', 0x5c), ('/', 0x2f), ('b', 0x08), ('f', 0x0c), ('n', 0x0a), ('r', 0x0d),
    ('t', 0x09)] : List (Char × UInt16)).lookup c

/-- The units of a text up to its closing quote, and what follows. A control character has to be
escaped. -/
def scanString : List Char → Option (Units × List Char)
  | [] => none
  | '"' :: rest => some ([], rest)
  | '\\' :: 'u' :: a :: b :: c :: d :: rest => do
    let unit ← hexUnit? a b c d
    let (units, rest) ← scanString rest
    return (unit :: units, rest)
  | '\\' :: c :: rest => do
    let unit ← shortEscape? c
    let (units, rest) ← scanString rest
    return (unit :: units, rest)
  | c :: rest =>
    if c = '\\' ∨ c.toNat < 0x20 then none
    else do
      let (units, rest) ← scanString rest
      return (Units.ofChar c ++ units, rest)

/-- The digits of a whole number at the front: a zero alone, or digits that begin with another. -/
def wholeDigits (cs : List Char) : List Char :=
  match cs with
  | '0' :: _ => ['0']
  | _ => cs.takeWhile Char.isDigit

/-- The digits of a fraction at the front, behind their point. -/
def fractionDigits : List Char → List Char
  | '.' :: rest => rest.takeWhile Char.isDigit
  | _ => []

/-- A number and its point, if a fraction stands at the front. -/
def dropFraction (cs : List Char) : List Char :=
  match fractionDigits cs with
  | [] => cs
  | digits => cs.drop (digits.length + 1)

/-- The exponent at the front, with the number of its characters; none if no digit follows. -/
def exponentPrefix (cs : List Char) : Option (Int × Nat) :=
  match cs with
  | e :: rest =>
    if e = 'e' ∨ e = 'E' then
      let (negative, unsigned) := splitSign rest
      let digits := unsigned.takeWhile Char.isDigit
      if digits = [] then none
      else
        let n : Int := Nat.ofDigitChars 10 digits 0
        some (if negative then -n else n, 1 + (rest.length - unsigned.length) + digits.length)
    else none
  | [] => none

/-- The number behind an optional minus at the front, and what follows. -/
def scanNumber (negative : Bool) (cs : List Char) : Option (JsonToken × List Char) :=
  let whole := wholeDigits cs
  if whole = [] then none
  else
    let behind := cs.drop whole.length
    let fraction := fractionDigits behind
    let rest := dropFraction behind
    match fraction, exponentPrefix rest with
    | [], none =>
      if integerDigitLimit < whole.length then some (.tooLong whole.length, rest)
      else
        let n : Int := Nat.ofDigitChars 10 whole 0
        some (.scalar (.integer (if negative then -n else n)), rest)
    | _, none =>
      some (.scalar (.number (Decimal.ofParts negative whole fraction 0).toBinary64), rest)
    | _, some (exponent, length) =>
      some (.scalar (.number (Decimal.ofParts negative whole fraction exponent).toBinary64),
        rest.drop length)

/-- The values that are written as words. -/
def words : List (List Char × Json) :=
  [("null".toList, .null), ("true".toList, .bool true), ("false".toList, .bool false),
   ("NaN".toList, .number .nan), ("Infinity".toList, .number (.infinite false)),
   ("-Infinity".toList, .number (.infinite true))]

/-- The word at the front, and what follows. -/
def scanWord (cs : List Char) : Option (JsonToken × List Char) :=
  (words.find? fun word => word.1.isPrefixOf cs).map fun word =>
    (.scalar word.2, cs.drop word.1.length)

/-- The scalar at the front, and what follows. -/
def scanScalar (cs : List Char) : Option (JsonToken × List Char) :=
  match cs with
  | '"' :: rest => (scanString rest).map fun (units, rest) => (.scalar (.string units), rest)
  | _ =>
    match scanWord cs with
    | some found => some found
    | none =>
      match cs with
      | '-' :: rest => scanNumber true rest
      | _ => scanNumber false cs

/-! ### What a scalar leaves behind -/

theorem length_scanString {cs rest : List Char} {units : Units}
    (h : scanString cs = some (units, rest)) : rest.length < cs.length := by
  fun_induction scanString cs generalizing units rest <;>
    simp only [Option.bind_eq_bind, Option.bind_eq_some_iff, Option.pure_def, Option.some.injEq,
      Prod.mk.injEq, Prod.exists, reduceCtorEq, List.length_cons] at h ⊢
  case case2 => obtain ⟨-, rfl⟩ := h; omega
  case case3 ih =>
    obtain ⟨_, _, _, _, h, -, rfl⟩ := h
    have := ih h; omega
  case case4 ih =>
    obtain ⟨_, _, _, _, h, -, rfl⟩ := h
    have := ih h; omega
  case case6 ih =>
    obtain ⟨_, _, h, -, rfl⟩ := h
    have := ih h; omega

theorem length_dropFraction (cs : List Char) : (dropFraction cs).length ≤ cs.length := by
  unfold dropFraction; split <;> simp

theorem length_scanNumber {negative : Bool} {cs rest : List Char} {token : JsonToken}
    (h : scanNumber negative cs = some (token, rest)) : rest.length < cs.length := by
  have hd := length_dropFraction (cs.drop (wholeDigits cs).length)
  rw [List.length_drop] at hd
  unfold scanNumber at h
  by_cases hw : wholeDigits cs = []
  · simp [hw] at h
  have hpos : 0 < (wholeDigits cs).length := List.length_pos_iff.2 hw
  have hcs : 0 < cs.length := by
    rcases cs with _ | ⟨c, cs⟩
    · simp [wholeDigits] at hw
    · simp
  simp only [hw, ↓reduceIte] at h
  split at h
  · split at h <;> simp only [Option.some.injEq, Prod.mk.injEq] at h <;> obtain ⟨-, rfl⟩ := h <;>
      omega
  · simp only [Option.some.injEq, Prod.mk.injEq] at h; obtain ⟨-, rfl⟩ := h; omega
  · simp only [Option.some.injEq, Prod.mk.injEq] at h; obtain ⟨-, rfl⟩ := h
    rw [List.length_drop]; omega

theorem length_scanWord {cs rest : List Char} {token : JsonToken}
    (h : scanWord cs = some (token, rest)) : rest.length < cs.length := by
  simp only [scanWord, Option.map_eq_some_iff, Prod.mk.injEq] at h
  obtain ⟨word, hf, -, rfl⟩ := h
  have hp := (by simpa using List.find?_some hf : word.1 <+: cs).length_le
  have hw : 0 < word.1.length := by
    have hm := List.mem_of_find?_eq_some hf
    simp only [words, List.mem_cons, List.not_mem_nil, or_false] at hm
    rcases hm with rfl | rfl | rfl | rfl | rfl | rfl <;> decide
  rw [List.length_drop]; omega

/-- A scalar takes up at least one character. -/
theorem length_scanScalar {cs rest : List Char} {token : JsonToken}
    (h : scanScalar cs = some (token, rest)) : rest.length < cs.length := by
  unfold scanScalar at h
  split at h
  · simp only [Option.map_eq_some_iff, Prod.mk.injEq, Prod.exists] at h
    obtain ⟨_, _, h, -, rfl⟩ := h
    have := length_scanString h
    simp only [List.length_cons]; omega
  · split at h
    · next found hw => cases h; exact length_scanWord hw
    · split at h
      · have := length_scanNumber h
        simp only [List.length_cons]; omega
      · exact length_scanNumber h

/-! ### The scan -/

/-- The characters between tokens that mean nothing. -/
def isSpace (c : Char) : Bool := c = ' ' || c = '\t' || c = '\n' || c = '\r'

/-- The token of a bracket or a separator. -/
def mark? (c : Char) : Option JsonToken :=
  if c = '[' then some .openArray
  else if c = ']' then some .closeArray
  else if c = '\x7b' then some .openObject
  else if c = '\x7d' then some .closeObject
  else if c = ',' then some .comma
  else if c = ':' then some .colon
  else none

/-- The tokens of a text. -/
def scan : List Char → List JsonToken
  | [] => []
  | c :: rest =>
    if isSpace c then scan rest
    else
      match mark? c with
      | some token => token :: scan rest
      | none =>
        match _behind : scanScalar (c :: rest) with
        | some (token, behind) => token :: scan behind
        | none => [.invalid]
termination_by cs => cs.length
decreasing_by
  · simp
  · simp
  · exact length_scanScalar _behind

end Json

end PocketCalculator
