import PocketCalculator.Proofs.Typing
import Mathlib.Data.List.Chain

/-! # The texts that the keypad makes

Whatever keys are pressed, the display shows the error tag or a text of the characters of the keypad
with one point at most in every run between two symbols (`KeypadText`). A point that is typed looks
only at the number behind the last symbol, which is where a second point could come from
(`KeypadText.concat`). In such a text the scanner takes every run as one numeral, unless the run is
a bare point, which it drops (`lexemes_eq_filter_pieces`). So no two numbers stand side by side, and
the tokens make up the text again (`keypad_text`). -/

namespace PocketCalculator

variable {settings : Settings}

/-- The characters of the keypad that can stand on the display. -/
def keypadCharacters : List Char := ".0123456789+-*/()".toList

/-- **A text that the keypad makes:** it is not empty, has no other characters than those of the
keypad, and has one point at most wherever no symbol comes in between. -/
structure KeypadText (cs : List Char) : Prop where
  ne_nil : cs ≠ []
  mem_keypad : ∀ c ∈ cs, c ∈ keypadCharacters
  count_point_le : ∀ run, run <:+: cs → (∀ c ∈ run, isSymbol c = false) → run.count '.' ≤ 1

/-- The pieces of a text: its symbols, and the runs between them in full. -/
def pieces : List Char → List (List Char)
  | [] => []
  | c :: cs =>
    if isSymbol c then [c] :: pieces cs
    else (c :: cs.takeWhile (!isSymbol ·)) :: pieces (cs.dropWhile (!isSymbol ·))
termination_by cs => cs.length
decreasing_by
  · exact Nat.lt_succ_self _
  · exact Nat.lt_succ_of_le (List.dropWhile_sublist _).length_le

/-- The text without those of its runs that are a bare point. -/
def withoutBarePoints (cs : List Char) : List Char := ((pieces cs).filter (· ≠ ['.'])).flatten

/-- The pieces make up the text. -/
theorem flatten_pieces (cs : List Char) : (pieces cs).flatten = cs := by
  fun_induction pieces cs with
  | case1 => rfl
  | case2 c cs hc ih => rw [List.flatten_cons, ih, List.singleton_append]
  | case3 c cs hc ih =>
    rw [List.flatten_cons, ih, List.cons_append, List.takeWhile_append_dropWhile]

/-! ### The runs between symbols -/

theorem isDigit_of_mem_keypad {c : Char} (hc : c ∈ keypadCharacters) (hs : isSymbol c = false) :
    c = '.' ∨ c.isDigit = true := by
  have hall : ∀ c ∈ keypadCharacters, isSymbol c = false → c = '.' ∨ c.isDigit = true :=
    forall_of_all (by decide)
  exact hall c hc hs

/-- **A run with one point at most** is a bare point or a numeral. -/
theorem Numeral.exists_of_run {run : List Char} (hne : run ≠ [])
    (hrun : ∀ c ∈ run, c = '.' ∨ c.isDigit = true) (hcount : run.count '.' ≤ 1) :
    run = ['.'] ∨ ∃ n : Numeral, n.text = run := by
  have hdigits : ∀ part, part ⊆ run → '.' ∉ part → ∀ c ∈ part, c.isDigit = true := by
    intro part hsub hnone c hc
    refine (hrun c (hsub hc)).resolve_left ?_
    rintro rfl
    exact hnone hc
  by_cases hpoint : '.' ∈ run
  · obtain ⟨whole, fraction, rfl⟩ := List.append_of_mem hpoint
    rw [List.count_append, List.count_cons_self] at hcount
    have hwhole := hdigits whole (List.subset_append_left ..) (List.count_eq_zero.mp (by omega))
    have hfraction := hdigits fraction
      (fun c hc => List.mem_append_right _ (List.mem_cons_of_mem _ hc))
      (List.count_eq_zero.mp (by omega))
    by_cases hbare : whole = [] ∧ fraction = []
    · left
      rw [hbare.1, hbare.2, List.nil_append]
    · right
      exact ⟨⟨whole, some fraction, hwhole, hfraction, Decidable.not_and_iff_not_or_not.mp hbare⟩,
        rfl⟩
  · right
    exact ⟨⟨run, none, hdigits run (List.Subset.refl _) hpoint, isDigit_of_mem_nil, .inl hne⟩, rfl⟩

theorem singleton_ne_point {c : Char} (hc : isSymbol c = true) : [c] ≠ ['.'] := by
  intro h
  rw [(List.cons.inj h).1] at hc
  cases hc

/-- **The scanner takes a run as one lexeme,** or drops it if it is a bare point. -/
theorem lexemes_run {run rest : List Char} (hne : run ≠ [])
    (hrun : ∀ c ∈ run, c = '.' ∨ c.isDigit = true) (hcount : run.count '.' ≤ 1)
    (hrest : ∀ c ∈ rest.head?, isSymbol c = true) :
    lexemes (run ++ rest) = [run].filter (· ≠ ['.']) ++ lexemes rest := by
  have hend : ∀ c ∈ rest.head?, c.isDigit = false ∧ c ≠ '.' := fun c hc =>
    isDigit_of_isSymbol (hrest c hc)
  rcases Numeral.exists_of_run hne hrun hcount with rfl | ⟨n, rfl⟩
  · rw [List.singleton_append, lexemes_point fun c hc => (hend c hc).1]
    rfl
  · have hbare : n.text ≠ ['.'] := by
      intro hpoint
      have halone : n.EndsBefore [] := by simp [Numeral.EndsBefore]
      have hread := n.numeralPrefix_text_append halone
      rw [List.append_nil, hpoint] at hread
      exact absurd hread (by decide)
    rw [lexemes_numeral n fun c hc => (hend c hc).imp_right fun h _ => h,
      List.filter_cons_of_pos (by simpa using hbare)]
    rfl

theorem isSymbol_head?_dropWhile (cs : List Char) :
    ∀ c ∈ (cs.dropWhile (!isSymbol ·)).head?, isSymbol c = true := by
  intro c hc
  have hhead := List.head?_dropWhile_not (!isSymbol ·) cs
  rw [Option.mem_def.mp hc] at hhead
  simpa using hhead

theorem lexemes_eq_filter_pieces {cs : List Char} (hmem : ∀ c ∈ cs, c ∈ keypadCharacters)
    (hcount : ∀ run, run <:+: cs → (∀ c ∈ run, isSymbol c = false) → run.count '.' ≤ 1) :
    lexemes cs = (pieces cs).filter (· ≠ ['.']) := by
  fun_induction pieces cs with
  | case1 => rw [lexemes, List.filter_nil]
  | case2 c cs hc ih =>
    rw [lexemes_symbol hc, List.filter_cons_of_pos (by simpa using singleton_ne_point hc),
      ih (fun d hd => hmem d (List.mem_cons_of_mem _ hd))
        fun run hrun => hcount run (hrun.trans (List.suffix_cons c cs).isInfix)]
  | case3 c cs hc ih =>
    have hsplit : c :: cs = (c :: cs.takeWhile (!isSymbol ·)) ++ cs.dropWhile (!isSymbol ·) := by
      rw [List.cons_append, List.takeWhile_append_dropWhile]
    generalize hrun : c :: cs.takeWhile (!isSymbol ·) = run at hsplit ⊢
    have hfree : ∀ d ∈ run, isSymbol d = false := by
      intro d hd
      rw [← hrun] at hd
      rcases List.mem_cons.mp hd with rfl | hd
      · exact Bool.not_eq_true _ ▸ hc
      · simpa using List.all_eq_true.mp List.all_takeWhile d hd
    rw [hsplit] at hmem hcount ⊢
    rw [lexemes_run (by rw [← hrun]; exact List.cons_ne_nil _ _)
        (fun d hd => isDigit_of_mem_keypad (hmem d (List.mem_append_left _ hd)) (hfree d hd))
        (hcount run (List.prefix_append ..).isInfix hfree) (isSymbol_head?_dropWhile cs),
      ih (fun d hd => hmem d (List.mem_append_right _ hd))
        fun part hpart => hcount part (hpart.trans (List.suffix_append ..).isInfix),
      ← List.filter_append, List.singleton_append]

/-- **Between two runs stands a symbol,** also when some of the runs are left out. -/
theorem isChain_filter_pieces {p : List Char → Bool} (hp : ∀ c, isSymbol c = true → p [c] = true)
    (cs : List Char) : ((pieces cs).filter p).IsChain fun a b =>
      (∃ c, isSymbol c = true ∧ a = [c]) ∨ ∃ c, isSymbol c = true ∧ b = [c] := by
  fun_induction pieces cs with
  | case1 => exact .nil
  | case2 c cs hc ih =>
    rw [List.filter_cons_of_pos (hp c hc)]
    exact List.isChain_cons.mpr ⟨fun _ _ => .inl ⟨c, hc, rfl⟩, ih⟩
  | case3 c cs hc ih =>
    by_cases hkept : p (c :: cs.takeWhile (!isSymbol ·)) = true
    · rw [List.filter_cons_of_pos hkept]
      refine List.isChain_cons.mpr ⟨fun piece hpiece => .inr ?_, ih⟩
      have hhead := isSymbol_head?_dropWhile cs
      generalize cs.dropWhile (!isSymbol ·) = rest at hhead hpiece
      rcases rest with _ | ⟨d, rest⟩
      · rw [pieces] at hpiece
        cases hpiece
      · have hd := hhead d rfl
        rw [pieces, if_pos hd, List.filter_cons_of_pos (hp d hd)] at hpiece
        cases hpiece
        exact ⟨d, hd, rfl⟩
    · rw [List.filter_cons_of_neg hkept]
      exact ih

/-! ### What a key does to such a text -/

namespace KeypadText

variable {cs : List Char}

theorem singleton {c : Char} (hc : c ∈ keypadCharacters) : KeypadText [c] where
  ne_nil := List.cons_ne_nil c []
  mem_keypad := by
    intro d hd
    rw [List.mem_singleton.mp hd]
    exact hc
  count_point_le := fun run hrun _ => List.count_le_length.trans hrun.length_le

theorem initialText : KeypadText Display.initialText.toList :=
  .singleton (c := '0') (by decide)

theorem mem_lastNumber {text : String} {run : List Char} (hrun : run <:+ text.toList)
    (hfree : ∀ c ∈ run, isSymbol c = false) :
    ∀ c ∈ run, c ∈ (Display.lastNumber text).toList := by
  obtain ⟨front, hfront⟩ := hrun
  have hall : ∀ c ∈ run.reverse, (!isSymbol c) = true := fun c hc => by
    rw [hfree c (List.mem_reverse.mp hc)]
    rfl
  intro c hc
  rw [Display.lastNumber, String.toList_ofList, List.mem_reverse, ← hfront, List.reverse_append,
    List.takeWhile_append_of_pos hall]
  exact List.mem_append_left _ (List.mem_reverse.mpr hc)

/-- **A character joins a text,** unless it would be a second point in the last number. -/
theorem concat {text : String} (h : KeypadText text.toList) {c : Char}
    (hc : c ∈ keypadCharacters) (hpoint : c = '.' → '.' ∉ (Display.lastNumber text).toList) :
    KeypadText (text.toList ++ [c]) where
  ne_nil := by simp
  mem_keypad := by
    intro d hd
    rcases List.mem_append.mp hd with hd | hd
    · exact h.mem_keypad d hd
    · rw [List.mem_singleton.mp hd]
      exact hc
  count_point_le := by
    intro run hrun hfree
    rcases List.infix_concat_iff.mp hrun with hend | hbefore
    · rcases List.suffix_concat_iff.mp hend with rfl | ⟨front, rfl, hfront⟩
      · exact Nat.zero_le 1
      -- the run ends with the new character: before it stands a part of the last number
      have hbefore : ∀ d ∈ front, isSymbol d = false := fun d hd =>
        hfree d (List.mem_append_left _ hd)
      rw [List.count_append]
      by_cases hdot : c = '.'
      · have hnone : front.count '.' = 0 := List.count_eq_zero.mpr fun hmem =>
          hpoint hdot (mem_lastNumber hfront hbefore '.' hmem)
        rw [hnone, hdot]
        decide
      · rw [List.count_singleton, if_neg (by simpa using hdot)]
        exact h.count_point_le front hfront.isInfix hbefore
    · exact h.count_point_le run hbefore hfree

theorem shown {x : Binary64} (hx : x.isFinite = true) : KeypadText x.shown.toList := by
  obtain ⟨s, m, hm, rfl⟩ := Binary64.exists_of_isFinite hx
  obtain ⟨a, htext, -⟩ := Binary64.exists_shown s hm
  have hmem := a.forall_mem_text (P := fun c => c ∈ keypadCharacters) (by decide)
  have hcount := a.count_point_le
  rw [htext, Decimal.signed]
  split
  · refine ⟨List.cons_ne_nil _ _, List.forall_mem_cons.mpr ⟨by decide, hmem⟩, ?_⟩
    intro run hrun _
    refine (hrun.sublist.count_le '.').trans ?_
    rwa [List.count_cons_of_ne (by decide)]
  · exact ⟨a.text_ne_nil, hmem, fun run hrun _ => (hrun.sublist.count_le '.').trans hcount⟩

theorem withLeadingZero (h : KeypadText cs) : KeypadText (withLeadingZero cs) := by
  have hzero : KeypadText ('0' :: cs) := by
    refine ⟨List.cons_ne_nil _ _, List.forall_mem_cons.mpr ⟨by decide, h.mem_keypad⟩, ?_⟩
    intro run hrun hfree
    rcases List.infix_cons_iff.mp hrun with hfront | hbehind
    · rcases List.prefix_cons_iff.mp hfront with rfl | ⟨part, rfl, hpart⟩
      · exact Nat.zero_le 1
      · rw [List.count_cons_of_ne (by decide)]
        exact h.count_point_le part hpart.isInfix fun c hc => hfree c (List.mem_cons_of_mem _ hc)
    · exact h.count_point_le run hbehind hfree
  unfold PocketCalculator.withLeadingZero
  split
  · exact h
  · split
    · exact hzero
    · exact h

end KeypadText

theorem exists_keypadCharacter {symbol : String} {action : Action}
    (h : actionOf? symbol = some action)
    (haction : action = .appendDigit ∨ action = .appendOperator) :
    ∃ c ∈ keypadCharacters, symbol = String.singleton c := by
  have hdigits : ∀ c ∈ "0123456789.".toList, c ∈ keypadCharacters := forall_of_all (by decide)
  have hsymbols : ∀ c ∈ "+-*/()".toList, c ∈ keypadCharacters := forall_of_all (by decide)
  obtain ⟨before, after, hkeys, -⟩ := List.lookup_eq_some_iff.mp h
  have hkey : (symbol, action) ∈ keypad := by
    rw [hkeys]
    exact List.mem_append_right before List.mem_cons_self
  unfold keypad at hkey
  rcases List.mem_append.mp hkey with hdigit | hother
  rcases List.mem_append.mp hdigit with hdigit | hsymbol
  · obtain ⟨c, hc, hkey⟩ := List.mem_map.mp hdigit
    cases hkey
    exact ⟨c, hdigits c hc, rfl⟩
  · obtain ⟨c, hc, hkey⟩ := List.mem_map.mp hsymbol
    cases hkey
    exact ⟨c, hsymbols c hc, rfl⟩
  · rcases haction with rfl | rfl
    · simp at hother
    · simp at hother

/-- **The text on a display:** the error tag or a text that the keypad makes. -/
def IsDisplayed (settings : Settings) (text : String) : Prop :=
  text = settings.errorTag ∨ KeypadText text.toList

theorem KeypadText.append {text : String} (h : KeypadText text.toList) (settings : Settings)
    {c : Char} (hc : c ∈ keypadCharacters) :
    KeypadText (Display.append settings ⟨text⟩ (String.singleton c)).text.toList := by
  unfold Display.append
  split
  · split
    · exact h
    · rw [String.toList_singleton]
      exact .singleton hc
  · split
    · exact h
    · next hpoint =>
      rw [String.toList_append, String.toList_singleton]
      refine h.concat hc fun hdot hmem => hpoint ⟨?_, hmem⟩
      rw [hdot]
      rfl

theorem isDisplayed_append {text : String} (h : IsDisplayed settings text) {c : Char}
    (hc : c ∈ keypadCharacters) :
    IsDisplayed settings (Display.append settings ⟨text⟩ (String.singleton c)).text := by
  rcases h with rfl | h
  · unfold Display.append
    rw [if_pos (.inr rfl)]
    split
    · exact .inl rfl
    · right
      rw [String.toList_singleton]
      exact .singleton hc
  · exact .inr (h.append settings hc)

theorem isDisplayed_answer (hp : 0 ≤ settings.displayDecimals) {line : String}
    (h : IsDisplayed settings line) : IsDisplayed settings (answer settings line) := by
  obtain ⟨course, hcourse⟩ := exists_takes hp line
  rw [hcourse.answer_eq]
  cases hcourse with
  | skipped => exact h
  | refused => exact .inl rfl
  | failed => exact .inl rfl
  | calculated _ hcalc => exact .inr (.shown (isFinite_of_calculate hcalc))

theorem isDisplayed_textAfter (hp : 0 ≤ settings.displayDecimals) {text : String}
    (h : IsDisplayed settings text) (symbol : String) :
    IsDisplayed settings (textAfter settings text symbol) := by
  unfold textAfter
  split
  · exact isDisplayed_answer hp h
  · exact .inr .initialText
  · exact h
  · exact h
  · next hkey =>
    obtain ⟨c, hc, rfl⟩ := exists_keypadCharacter hkey (.inl rfl)
    exact isDisplayed_append h hc
  · next hkey =>
    obtain ⟨c, hc, rfl⟩ := exists_keypadCharacter hkey (.inr rfl)
    exact isDisplayed_append h hc

/-- **What stands on the display** of any session that keys lead to. -/
theorem Reached.isDisplayed {start d : Desk} {s : Session} (hp : 0 ≤ settings.displayDecimals)
    (hstart : start.history.path = none) (h : Reached settings start s d) :
    IsDisplayed settings s.display.text := by
  induction h with
  | fresh => exact .inr .initialText
  | @press s d h clock symbol hb ih =>
    obtain ⟨s', d', hpress, htext, -⟩ :=
      Session.press_inMemory hp clock s (h.path_eq_none hp hstart) hb
    have hstep := isDisplayed_textAfter hp ih symbol
    rw [← htext] at hstep
    rw [hpress]
    exact hstep

/-! ### The tokens of such a text -/

theorem text_ofText (text : String) : (Token.ofText text).text = text := by
  unfold Token.ofText
  repeat' split
  all_goals rfl

theorem isNumber_ofText_symbol {c : Char} (hc : isSymbol c = true) :
    (Token.ofText (String.ofList [c])).isNumber = false := by
  simp only [isSymbol, Bool.or_eq_true, decide_eq_true_eq] at hc
  rcases hc with ((((rfl | rfl) | rfl) | rfl) | rfl) | rfl <;> rfl

/-- **The tokens of a text of the keypad** stand for its pieces other than bare points. -/
theorem KeypadText.tokensOf_line {line : String} (h : KeypadText line.toList) :
    ((tokensOf line).IsChain fun a b => ¬ (a.isNumber = true ∧ b.isNumber = true)) ∧
      (tokensOf line).flatMap (·.text.toList) =
        withoutBarePoints (PocketCalculator.withLeadingZero line.toList) := by
  have hzero := h.withLeadingZero
  unfold tokensOf withoutBarePoints
  rw [lexemes_eq_filter_pieces hzero.mem_keypad hzero.count_point_le]
  constructor
  · have hchain := isChain_filter_pieces (p := (· ≠ ['.']))
      (fun c hc => decide_eq_true (singleton_ne_point hc))
      (PocketCalculator.withLeadingZero line.toList)
    refine (List.isChain_map _).mpr (hchain.imp fun a b hab hnumbers => ?_)
    rcases hab with ⟨c, hc, rfl⟩ | ⟨c, hc, rfl⟩
    · exact absurd (hnumbers.1.symm.trans (isNumber_ofText_symbol hc)) (by decide)
    · exact absurd (hnumbers.2.symm.trans (isNumber_ofText_symbol hc)) (by decide)
  · simp only [List.flatMap_map, text_ofText, String.toList_ofList, List.flatMap_id']

/-- **What the keypad can come to:** after any keys on a fresh session every further key goes
through, and the display shows the error tag or a text that the keypad makes. The tokens of such a
text have no two numbers side by side, and they make up the text, with a zero put before a sign at
its front, but for the bare points. -/
theorem keypad_text (hp : 0 ≤ settings.displayDecimals) {start d : Desk} {s : Session}
    (hstart : start.history.path = none) (h : Reached settings start s d) :
    (∀ (clock : Readings) (symbol : String), (actionOf? symbol).isSome = true →
      (s.press settings clock d symbol).result = .ok ()) ∧
      (s.display.text = settings.errorTag ∨
        KeypadText s.display.text.toList ∧
          ∀ tokens, tokenize s.display.text = .ok tokens →
            (tokens.IsChain fun a b => ¬ (a.isNumber = true ∧ b.isNumber = true)) ∧
              tokens.flatMap (·.text.toList) =
                withoutBarePoints (withLeadingZero s.display.text.toList)) := by
  constructor
  · intro clock symbol hb
    obtain ⟨s', d', hpress, -⟩ :=
      Session.press_inMemory hp clock s (h.path_eq_none hp hstart) hb
    rw [hpress]
  · refine (h.isDisplayed hp hstart).imp_right fun htext => ⟨htext, fun tokens htokens => ?_⟩
    obtain rfl : tokensOf s.display.text = tokens := by
      unfold tokenize at htokens
      split at htokens
      · cases htokens
      · cases htokens
        rfl
    exact htext.tokensOf_line

/-- The keys `.+5.2.`, of which the last one is without effect. -/
def pointKeys : List String := Session.keysOf ".+5.2."

theorem keypad_text_point : ∃ s d, Reached .standard .inMemory s d ∧
    Desk.inMemory.history.path = none ∧ 0 ≤ Settings.standard.displayDecimals ∧
    s.display.text = ".+5.2" ∧
    (∀ clock, (s.press .standard clock d "=").result = .ok ()) ∧
    KeypadText s.display.text.toList ∧
    ∀ tokens, tokenize s.display.text = .ok tokens →
      tokens.flatMap (·.text.toList) = "+5.2".toList := by
  have hp : 0 ≤ Settings.standard.displayDecimals := by decide
  have hkeys : ∀ symbol ∈ pointKeys, (actionOf? symbol).isSome = true := by decide
  obtain ⟨s, d, hall, htext, -⟩ :=
    Session.pressAll_inMemory hp .midnight pointKeys .fresh (d := .inMemory) rfl hkeys
  have hreached : Reached .standard .inMemory _ _ := .pressAll .midnight pointKeys hkeys .fresh
  rw [hall] at hreached
  have hshown : s.display.text = ".+5.2" := htext.trans (by decide +kernel)
  obtain ⟨hpress, htag | ⟨hkeypad, htokens⟩⟩ := keypad_text hp rfl hreached
  · rw [hshown] at htag
    exact absurd htag (by decide)
  · refine ⟨s, d, hreached, rfl, hp, hshown, fun clock => hpress clock "=" rfl, hkeypad,
      fun tokens h => ?_⟩
    have hpieces : withoutBarePoints (withLeadingZero ".+5.2".toList) = "+5.2".toList := by
      decide +kernel
    rw [(htokens tokens h).2, hshown, hpieces]

end PocketCalculator
