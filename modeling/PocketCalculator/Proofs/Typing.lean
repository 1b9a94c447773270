import PocketCalculator.Proofs.InMemory

/-! # Typing a numeral

Behind a symbol the keys of a numeral put its text on the display, character by character
(`foldl_keys`): the text is neither the fresh zero nor the error tag any more, and a numeral has one
point at most. On the fresh zero an operator is ignored and the zeros that begin a numeral are lost
(`foldl_initialText`); the rest of it has the same value, unless it is a bare point
(`Numeral.exists_restarted`). -/

namespace PocketCalculator

variable {settings : Settings}

/-! ### One character -/

theorem textAfter_digit {text : String} {c : Char} (hc : c ∈ ".0123456789".toList) :
    textAfter settings text (String.singleton c) =
      (Display.append settings ⟨text⟩ (String.singleton c)).text := by
  have hkeys : ∀ c ∈ ".0123456789".toList,
      actionOf? (String.singleton c) = some .appendDigit := forall_of_all (by decide)
  unfold textAfter
  rw [hkeys c hc]

theorem textAfter_operator (text : String) (op : Operator) :
    textAfter settings text op.text = (Display.append settings ⟨text⟩ op.text).text := by
  cases op <;> rfl

theorem append_of_ne {text symbol : String} (hzero : text ≠ Display.initialText)
    (htag : text ≠ settings.errorTag)
    (hpoint : ¬ (symbol = "." ∧ '.' ∈ (Display.lastNumber text).toList)) :
    (Display.append settings ⟨text⟩ symbol).text = text ++ symbol := by
  have hjoin : ¬ (text = Display.initialText ∨ text = settings.errorTag) := fun h =>
    h.elim hzero htag
  show (if text = Display.initialText ∨ text = settings.errorTag then _ else _ : Display).text = _
  rw [if_neg hjoin]
  show (if symbol = "." ∧ '.' ∈ (Display.lastNumber text).toList then _ else _ : Display).text = _
  rw [if_neg hpoint]

theorem lastNumber_append {front number : List Char}
    (hf : ∀ c ∈ front.getLast?, isSymbol c = true) (hn : ∀ c ∈ number, isSymbol c = false) :
    (Display.lastNumber (String.ofList (front ++ number))).toList = number := by
  have hnumber : ∀ c ∈ number.reverse, (!isSymbol c) = true := fun c hc => by
    rw [hn c (List.mem_reverse.mp hc)]; rfl
  have hfront : front.reverse.takeWhile (!isSymbol ·) = [] := by
    refine takeWhile_of_head fun c hc => ?_
    rw [List.head?_reverse] at hc
    rw [hf c hc]; rfl
  unfold Display.lastNumber
  rw [String.toList_ofList, String.toList_ofList, List.reverse_append,
    List.takeWhile_append_of_pos hnumber, hfront, List.append_nil, List.reverse_reverse]

/-! ### A row of characters -/

/-- **Typing a number:** the characters of a number with one point at most join the text. -/
theorem foldl_keys {front : List Char} (hf : ∀ c ∈ front.getLast?, isSymbol c = true) :
    ∀ rest typed : List Char, (∀ c ∈ typed ++ rest, c ∈ ".0123456789".toList) →
      (typed ++ rest).count '.' ≤ 1 →
      (∃ c ∈ front ++ typed, c ≠ '0' ∧ c ∉ settings.errorTag.toList) →
        (rest.map String.singleton).foldl (textAfter settings)
          (String.ofList (front ++ typed)) = String.ofList (front ++ (typed ++ rest))
  | [], typed, _, _, _ => by rw [List.append_nil]; rfl
  | c :: rest, typed, hdigits, hpoint, hmark => by
    -- the mark tells the text from the fresh zero and from the error tag, and stays in it
    obtain ⟨mark, hmem, hzero, htag⟩ := hmark
    have hc : c ∈ ".0123456789".toList := hdigits c (by simp)
    have hsymbols : ∀ d ∈ typed, isSymbol d = false := by
      have hall : ∀ d ∈ ".0123456789".toList, isSymbol d = false :=
        forall_of_all (by decide)
      exact fun d hd => hall d (hdigits d (List.mem_append_left _ hd))
    have hstep : textAfter settings (String.ofList (front ++ typed)) (String.singleton c) =
        String.ofList (front ++ (typed ++ [c])) := by
      rw [textAfter_digit hc, append_of_ne]
      · rw [← String.toList_inj, String.toList_append, String.toList_ofList, String.toList_ofList,
          String.toList_singleton, List.append_assoc]
      · intro h
        rw [← String.toList_inj, String.toList_ofList] at h
        have hone : Display.initialText.toList = ['0'] := rfl
        rw [h, hone] at hmem
        exact hzero (List.mem_singleton.mp hmem)
      · intro h
        rw [← h, String.toList_ofList] at htag
        exact htag hmem
      · rintro ⟨hdot, hold⟩
        rw [lastNumber_append hf hsymbols] at hold
        have hcdot : c = '.' := by
          rw [← String.toList_inj, String.toList_singleton] at hdot
          exact (List.cons.inj hdot).1
        have hcount := List.count_pos_iff.mpr hold
        rw [hcdot, List.count_append, List.count_cons_self] at hpoint
        omega
    have hnext : typed ++ [c] ++ rest = typed ++ c :: rest := by
      rw [List.append_assoc, List.singleton_append]
    have ih := foldl_keys hf rest (typed ++ [c]) (by rw [hnext]; exact hdigits)
      (by rw [hnext]; exact hpoint)
      ⟨mark, by rw [← List.append_assoc]; exact List.mem_append_left _ hmem, hzero, htag⟩
    rw [List.map_cons, List.foldl_cons, hstep, ih, hnext]

/-! ### On the fresh zero -/

/-- What is left of a row of digits and points that is typed on the fresh zero. -/
def restarted (cs : List Char) : List Char :=
  if cs.dropWhile (· = '0') = [] then ['0'] else cs.dropWhile (· = '0')

theorem length_restarted_le {cs : List Char} (h : cs ≠ []) :
    (restarted cs).length ≤ cs.length := by
  unfold restarted
  split
  · exact List.length_pos_iff.mpr h
  · exact (List.dropWhile_sublist _).length_le

theorem append_initialText {symbol : String} (h : symbol ∉ Token.operators) :
    (Display.append settings ⟨Display.initialText⟩ symbol).text = symbol := by
  show (if Display.initialText = Display.initialText ∨ _ then _ else _ : Display).text = _
  rw [if_pos (Or.inl rfl)]
  show (if Display.initialText = Display.initialText ∧ symbol ∈ Token.operators then _ else _ :
    Display).text = _
  rw [if_neg fun hop => h hop.2]

/-- **Typing on the fresh zero:** zeros change nothing, and the first other character replaces
it. -/
theorem foldl_initialText (htag : ∀ c ∈ ".0123456789".toList, c ∉ settings.errorTag.toList) :
    ∀ cs : List Char, (∀ c ∈ cs, c ∈ ".0123456789".toList) → cs.count '.' ≤ 1 →
      (cs.map String.singleton).foldl (textAfter settings) Display.initialText =
        String.ofList (restarted cs)
  | [], _, _ => rfl
  | c :: cs, hdigits, hpoint => by
    have hc : c ∈ ".0123456789".toList := hdigits c (by simp)
    have hop : ∀ c ∈ ".0123456789".toList, String.singleton c ∉ Token.operators :=
      forall_of_all (by decide)
    have hstep : textAfter settings Display.initialText (String.singleton c) =
        String.singleton c := by
      rw [textAfter_digit hc, append_initialText (hop c hc)]
    rw [List.map_cons, List.foldl_cons, hstep]
    by_cases h0 : c = '0'
    · subst h0
      have hrest : restarted ('0' :: cs) = restarted cs := by
        rw [restarted, List.dropWhile_cons_of_pos (by decide)]
        rfl
      rw [hrest]
      refine foldl_initialText htag cs (fun d hd => hdigits d (List.mem_cons_of_mem _ hd)) ?_
      rwa [List.count_cons_of_ne (by decide)] at hpoint
    · have hrest : restarted (c :: cs) = c :: cs := by
        rw [restarted, List.dropWhile_cons_of_neg (by simpa using h0), if_neg (by simp)]
      have hfront : ∀ d ∈ ([] : List Char).getLast?, isSymbol d = true := by simp
      rw [hrest]
      exact foldl_keys hfront cs [c] hdigits hpoint ⟨c, by simp, h0, htag c hc⟩

namespace Numeral

theorem count_point_le (n : Numeral) : n.text.count '.' ≤ 1 := by
  have hnone : ∀ ds : List Char, (∀ c ∈ ds, c.isDigit = true) → ds.count '.' = 0 := by
    intro ds hds
    refine List.count_eq_zero.mpr fun hmem => ?_
    exact absurd (hds '.' hmem) (by decide)
  have hw := hnone _ n.whole_digits
  have hf := n.fraction_digits
  unfold text
  split
  · omega
  · next f heq =>
    rw [heq] at hf
    have hf' := hnone f hf
    rw [List.count_append, List.count_cons_self]
    omega

theorem ofDigitChars_dropZeros (f : List Char) : ∀ ds : List Char,
    Nat.ofDigitChars 10 (ds.dropWhile (· = '0') ++ f) 0 = Nat.ofDigitChars 10 (ds ++ f) 0
  | [] => rfl
  | c :: ds => by
    by_cases h0 : c = '0'
    · subst h0
      rw [List.dropWhile_cons_of_pos (by decide), ofDigitChars_dropZeros f ds, List.cons_append,
        Nat.ofDigitChars_cons]
      rfl
    · rw [List.dropWhile_cons_of_neg (by simpa using h0)]

/-- **What is left of a numeral** typed on the fresh zero has its value, or is a bare point. -/
theorem exists_restarted (w : Numeral) :
    restarted w.text = ['.'] ∨ ∃ n : Numeral, n.text = restarted w.text ∧ n.value = w.value := by
  have hdrop : ∀ c ∈ w.whole.dropWhile (· = '0'), c.isDigit = true := fun c hc =>
    w.whole_digits c (List.dropWhile_subset _ hc)
  have hvalue := fun f => ofDigitChars_dropZeros f w.whole
  have hf := w.fraction_digits
  rcases heq : w.fraction with _ | f
  · have htext : w.text = w.whole := by rw [text, heq]
    have hdec : w.decimal = ⟨false, Nat.ofDigitChars 10 (w.whole ++ []) 0, -(0 : Nat)⟩ := by
      rw [decimal, digits, heq]; rfl
    right
    unfold restarted
    rw [htext]
    by_cases hall : w.whole.dropWhile (· = '0') = []
    · refine ⟨zero, by rw [if_pos hall]; rfl, congrArg Decimal.toBinary64 ?_⟩
      rw [hdec, ← hvalue, hall]
      rfl
    · refine ⟨⟨w.whole.dropWhile (· = '0'), none, hdrop, by simp, Or.inl hall⟩,
        by rw [if_neg hall]; rfl, congrArg Decimal.toBinary64 ?_⟩
      rw [hdec, ← hvalue]
      rfl
  · rw [heq] at hf
    have htext : w.text = w.whole ++ '.' :: f := by rw [text, heq]
    have hdec : w.decimal = ⟨false, Nat.ofDigitChars 10 (w.whole ++ f) 0, -(f.length : Int)⟩ := by
      rw [decimal, digits, heq]; rfl
    have hleft : restarted w.text = w.whole.dropWhile (· = '0') ++ '.' :: f := by
      have hd : (w.whole ++ '.' :: f).dropWhile (· = '0') =
          w.whole.dropWhile (· = '0') ++ '.' :: f := by
        rw [List.dropWhile_append, List.dropWhile_cons_of_neg (by decide)]
        split
        · next hnil => rw [List.isEmpty_iff.mp hnil]; rfl
        · rfl
      rw [restarted, htext, hd, if_neg (by simp)]
    by_cases hpoint : w.whole.dropWhile (· = '0') = [] ∧ f = []
    · left
      rw [hleft, hpoint.1, hpoint.2]
      rfl
    · right
      refine ⟨⟨w.whole.dropWhile (· = '0'), some f, hdrop, hf,
        Decidable.not_and_iff_not_or_not.mp hpoint⟩, hleft.symm, congrArg Decimal.toBinary64 ?_⟩
      rw [hdec, ← hvalue]
      rfl

end Numeral

end PocketCalculator
