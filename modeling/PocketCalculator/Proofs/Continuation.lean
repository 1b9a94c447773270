import PocketCalculator.Proofs.Redisplay
import PocketCalculator.Proofs.Typing

/-! # Continuing from a result

Behind a shown result an operator and a numeral can be typed, and the evaluation applies the
operator to the result (`continue_from_result`). A shown zero is the exception, for it is the fresh
zero of the display: the operator is ignored and the numeral starts anew
(`not_continue_from_zero`). `Continues` says what is shown in the end. -/

namespace PocketCalculator

variable {settings : Settings}

/-- **What is shown** when an operator, a numeral and an evaluation follow a shown result. -/
inductive Continues (settings : Settings) (r : Binary64) (op : Operator) (w : Numeral) :
    String → Prop where
  | applied (hr : r.isZero = false) {outcome : Outcome}
      (h : Settles settings (op.combine? r w.value) outcome) :
      Continues settings r op w (outcome.shown settings)
  | restarted (hr : r.isZero = true) (hw : restarted w.text ≠ ['.']) {outcome : Outcome}
      (h : Settles settings (some w.value) outcome) :
      Continues settings r op w (outcome.shown settings)
  | point (hr : r.isZero = true) (hw : restarted w.text = ['.']) :
      Continues settings r op w settings.errorTag

/-- The keys of an operator, a numeral and an evaluation. -/
def continuation (op : Operator) (w : Numeral) : List String :=
  op.text :: (Session.keysOf w.string ++ ["="])

theorem keysOf_string (w : Numeral) :
    Session.keysOf w.string = w.text.map String.singleton := by
  rw [Session.keysOf, w.toList_string]

theorem isSome_actionOf?_continuation (op : Operator) (w : Numeral) :
    ∀ symbol ∈ continuation op w, (actionOf? symbol).isSome = true := by
  intro symbol hmem
  rcases List.mem_cons.mp hmem with rfl | hmem
  · cases op <;> decide
  rcases List.mem_append.mp hmem with hmem | hmem
  · rw [keysOf_string] at hmem
    obtain ⟨c, hc, rfl⟩ := List.mem_map.mp hmem
    exact w.forall_mem_text (P := fun c => (actionOf? (String.singleton c)).isSome = true)
      (by decide) c hc
  · rw [List.mem_singleton.mp hmem]
    decide

/-! ### The text on the display -/

theorem exists_result (hp : 0 ≤ settings.displayDecimals) {line : String}
    (hblank : isBlankText line = false) (h : answer settings line ≠ settings.errorTag) :
    ∃ r, calculate settings line = .ok (.value r) ∧ r.isFinite = true ∧
      answer settings line = r.shown := by
  obtain ⟨course, hcourse⟩ := exists_takes hp line
  have hanswer := hcourse.answer_eq
  cases hcourse with
  | skipped hskip =>
    rcases hskip with hb | htag
    · rw [hblank] at hb
      cases hb
    · exact absurd (hanswer.trans htag) h
  | refused => exact absurd hanswer h
  | failed => exact absurd hanswer h
  | @calculated hlet r hcalc =>
    obtain ⟨outcome, hcalc', hout⟩ := exists_calculate hp line
    rw [hcalc] at hcalc'
    cases hcalc'
    cases hout with
    | value hfin => exact ⟨r, hcalc, hfin, hanswer⟩

theorem calculate_point : calculate settings "." =
    .ok (.failed .invalidExpression (.noTokens ".")) := by
  have htokens : tokensOf "." = [] := by
    have hlex : lexemes ['.'] = [] := by
      rw [lexemes_point (by simp), lexemes]
    rw [tokensOf]
    exact congrArg (List.map _) hlex
  unfold calculate lineValue tokenize
  rw [htokens]
  rfl

section Keys
variable (htag : ∀ c ∈ ".0123456789+-*/".toList, c ∉ settings.errorTag.toList)
include htag

theorem ne_errorTag_of_mem {text : String} {c : Char} (hc : c ∈ ".0123456789+-*/".toList)
    (hmem : c ∈ text.toList) : text ≠ settings.errorTag := by
  rintro rfl
  exact htag c hc hmem

theorem foldl_behind_shown (s : Bool) {m : Nat} (hm : Representable m) (h0 : m ≠ 0)
    (op : Operator) (w : Numeral) :
    (op.text :: Session.keysOf w.string).foldl (textAfter settings)
        (Binary64.finite s m hm).shown =
      (Binary64.finite s m hm).shown ++ op.text ++ w.string := by
  have hzero : (Binary64.finite s m hm).shown ≠ Display.initialText := fun h =>
    h0 ((Binary64.shown_eq_zero_iff s hm).mp h)
  have hne : (Binary64.finite s m hm).shown ≠ settings.errorTag := by
    obtain ⟨c, hmem, hc⟩ := Binary64.exists_mem_shown (P := (· ∈ ".0123456789+-*/".toList)) s hm
      (by decide)
    exact ne_errorTag_of_mem htag hc hmem
  have hop : op.text ≠ "." ∧ op.symbol ≠ '0' ∧ op.symbol ∈ ".0123456789+-*/".toList := by
    cases op <;> decide
  have hstep : textAfter settings (Binary64.finite s m hm).shown op.text =
      String.ofList ((Binary64.finite s m hm).shown.toList ++ [op.symbol] ++ []) := by
    rw [textAfter_operator, append_of_ne hzero hne fun h => hop.1 h.1, ← String.toList_inj,
      String.toList_append, op.toList_text, String.toList_ofList, List.append_nil]
  have hfront : ∀ c ∈ ((Binary64.finite s m hm).shown.toList ++ [op.symbol]).getLast?,
      isSymbol c = true := by
    intro c hc
    rw [List.getLast?_concat] at hc
    cases hc
    exact op.isSymbol_symbol
  rw [List.foldl_cons, keysOf_string, hstep, foldl_keys hfront w.text []
      (w.forall_mem_text (by decide)) w.count_point_le
      ⟨op.symbol, by simp, hop.2.1, htag _ hop.2.2⟩,
    ← String.toList_inj, String.toList_ofList, String.toList_append, String.toList_append,
    op.toList_text, w.toList_string, List.nil_append]

theorem foldl_behind_zero (op : Operator) (w : Numeral) :
    (op.text :: Session.keysOf w.string).foldl (textAfter settings) Display.initialText =
      String.ofList (restarted w.text) := by
  have hignored : textAfter settings Display.initialText op.text = Display.initialText := by
    rw [textAfter_operator]
    show (if Display.initialText = Display.initialText ∨ _ then _ else _ : Display).text = _
    rw [if_pos (Or.inl rfl), if_pos ⟨rfl, op.mem_operators⟩]
  have hdigits : ∀ c ∈ ".0123456789".toList, c ∉ settings.errorTag.toList := fun c hc =>
    htag c (List.mem_append_left "+-*/".toList hc)
  rw [List.foldl_cons, keysOf_string, hignored]
  exact foldl_initialText hdigits w.text (w.forall_mem_text (by decide)) w.count_point_le

variable (hp : 0 ≤ settings.displayDecimals)
include hp

theorem continues_behind_shown (s : Bool) {m : Nat} (hm : Representable m) (h0 : m ≠ 0)
    {op : Operator} {w : Numeral}
    (hlen : (((Binary64.finite s m hm).shown ++ op.text ++ w.string).length : Int) ≤
      settings.maxExpressionLength) :
    Continues settings (.finite s m hm) op w
      (answer settings ((Binary64.finite s m hm).shown ++ op.text ++ w.string)) := by
  obtain ⟨outcome, hcalc, hs⟩ := calculate_shown hp s hm h0 op w
  have hblank : isBlankText ((Binary64.finite s m hm).shown ++ op.text ++ w.string) = false :=
    isBlankText_append (isBlankText_append (isBlankText_shown rfl) _) _
  have hmem : op.symbol ∈ ((Binary64.finite s m hm).shown ++ op.text ++ w.string).toList := by
    rw [String.toList_append, String.toList_append, op.toList_text]
    simp
  have hop : op.symbol ∈ ".0123456789+-*/".toList := by cases op <;> decide
  have hne : (Binary64.finite s m hm).isZero = false := beq_false_of_ne h0
  rw [answer_of_outcome ⟨hblank, ne_errorTag_of_mem htag hop hmem, hlen⟩ hcalc]
  exact .applied hne hs

theorem continues_behind_zero {r : Binary64} (hr : r.isZero = true) {op : Operator} {w : Numeral}
    (hlen : ((String.ofList (restarted w.text)).length : Int) ≤ settings.maxExpressionLength) :
    Continues settings r op w (answer settings (String.ofList (restarted w.text))) := by
  by_cases hw : restarted w.text = ['.']
  · have hne : "." ≠ settings.errorTag := ne_errorTag_of_mem (c := '.') htag (by decide) (by decide)
    rw [hw] at hlen ⊢
    rw [show String.ofList ['.'] = "." from rfl] at hlen ⊢
    rw [answer_of_outcome ⟨by decide, hne, hlen⟩ calculate_point]
    exact .point hr hw
  · rcases w.exists_restarted with hpoint | ⟨n, htext, hvalue⟩
    · exact absurd hpoint hw
    obtain ⟨outcome, hcalc, hs⟩ := calculate_numeral hp n
    rw [← htext, ← Numeral.string] at hlen ⊢
    obtain ⟨c, hmem, hc, hb⟩ := n.exists_mem_text
      (P := fun c => c ∈ ".0123456789+-*/".toList ∧ isBlank c = false) (by decide)
    rw [← n.toList_string] at hmem
    rw [answer_of_outcome
      ⟨isBlankText_of_mem hmem hb, ne_errorTag_of_mem htag hc hmem, hlen⟩ hcalc]
    rw [hvalue] at hs
    exact .restarted hr hw hs

/-- **Continuing on the display:** what a continuation leaves behind a shown number. -/
theorem continues_foldl {r : Binary64} (hr : r.isFinite = true) {op : Operator} {w : Numeral}
    (hlen : ((r.shown ++ op.text ++ w.string).length : Int) ≤ settings.maxExpressionLength) :
    Continues settings r op w ((continuation op w).foldl (textAfter settings) r.shown) := by
  have hlast : ∀ text, textAfter settings text "=" = answer settings text := fun _ => rfl
  rw [continuation, ← List.cons_append, List.foldl_append, List.foldl_cons, List.foldl_nil, hlast]
  obtain ⟨s, m, hm, rfl⟩ := Binary64.exists_of_isFinite hr
  -- a shown zero is the text of a fresh display, whatever was calculated
  by_cases h0 : m = 0
  · have hzero : (Binary64.finite s m hm).shown = Display.initialText :=
      (Binary64.shown_eq_zero_iff s hm).mpr h0
    rw [hzero, foldl_behind_zero htag]
    have hz : (Binary64.finite s m hm).isZero = true := beq_iff_eq.mpr h0
    refine continues_behind_zero htag hp hz ?_
    rw [String.length_append, String.length_append] at hlen
    have hshort := length_restarted_le w.text_ne_nil
    rw [String.length_ofList]
    rw [Numeral.string, String.length_ofList] at hlen
    omega
  · rw [foldl_behind_shown htag s hm h0]
    exact continues_behind_shown htag hp s hm h0 hlen

end Keys

/-! ### The session -/

/-- **Continuing from a result:** whatever keys have been pressed, an evaluation that does not show
the error tag shows a result, and a continuation that is not too long continues from it. -/
theorem continue_from_result {start d d₁ : Desk} {s s₁ : Session} {clock : Readings}
    {result : Except Fault Unit} (hstart : start.history.path = none)
    (h : Reached .standard start s d) (hpress : s.press .standard clock d "=" = ⟨result, s₁, d₁⟩)
    (hshown : s₁.display.text ≠ Settings.standard.errorTag) :
    ∃ r, calculate .standard s.display.text = .ok (.value r) ∧ r.isFinite = true ∧
      s₁.display.text = r.shown ∧
      ∀ (op : Operator) (w : Numeral) (clock' : Readings),
        ((r.shown ++ op.text ++ w.string).length : Int) ≤ Settings.standard.maxExpressionLength →
        ∃ s₂ d₂, s₁.pressAll .standard clock' d₁ (continuation op w) = ⟨.ok (), s₂, d₂⟩ ∧
          Continues .standard r op w s₂.display.text := by
  have hp : 0 ≤ Settings.standard.displayDecimals := by decide
  have hkey : (actionOf? "=").isSome = true := rfl
  have hblank := h.isBlankText_text hp (by decide) hstart
  obtain ⟨s', d', hpress', hanswer, hd₁⟩ :=
    Session.press_inMemory hp clock s (h.path_eq_none hp hstart) hkey
  rw [hpress'] at hpress
  cases hpress
  have hline : s₁.display.text = answer .standard s.display.text := hanswer
  rw [hline] at hshown
  obtain ⟨r, hcalc, hfin, hr⟩ := exists_result hp hblank hshown
  refine ⟨r, hcalc, hfin, by rw [hline, hr], fun op w clock' hlen => ?_⟩
  obtain ⟨s₂, d₂, hall, htext, -⟩ := Session.pressAll_inMemory hp clock' (continuation op w) s₁ hd₁
    (isSome_actionOf?_continuation op w)
  refine ⟨s₂, d₂, hall, ?_⟩
  rw [htext, hline, hr]
  exact continues_foldl (forall_of_all (by decide)) hp hfin hlen

/-- The line `2-5` on the display. -/
def typedDifference : Afterwards :=
  Session.fresh.pressAll .standard .midnight .inMemory ["2", "-", "5"]

/-- The line `2-5` evaluated. -/
def shownDifference : Afterwards :=
  typedDifference.session.press .standard .midnight typedDifference.desk "="

theorem continue_from_negative :
    Desk.inMemory.history.path = none ∧
      Reached .standard .inMemory typedDifference.session typedDifference.desk ∧
      shownDifference.session.display.text ≠ Settings.standard.errorTag ∧
      ∃ r, shownDifference.session.display.text = r.shown ∧
        ∃ s₂ d₂, shownDifference.session.pressAll .standard .midnight shownDifference.desk
            (continuation .multiply (.digit 5)) = ⟨.ok (), s₂, d₂⟩ ∧
          Continues .standard r .multiply (.digit 5) s₂.display.text := by
  have hreached : Reached .standard .inMemory typedDifference.session typedDifference.desk :=
    Reached.pressAll .midnight ["2", "-", "5"] (by decide) .fresh
  have hshown : shownDifference.session.display.text ≠ Settings.standard.errorTag := by
    decide +kernel
  have hpress : typedDifference.session.press .standard .midnight typedDifference.desk "=" =
      ⟨shownDifference.result, shownDifference.session, shownDifference.desk⟩ := rfl
  obtain ⟨r, -, -, hr, hcontinue⟩ := continue_from_result rfl hreached hpress hshown
  refine ⟨rfl, hreached, hshown, r, hr, hcontinue .multiply (.digit 5) .midnight ?_⟩
  rw [← hr]
  decide +kernel

/-- A zero is not continued from: behind it the minus of `-5` is ignored. -/
theorem not_continue_from_zero :
    ¬ ∀ (start d d₁ : Desk) (s s₁ : Session) (clock : Readings) (result : Except Fault Unit)
      (r : Binary64), start.history.path = none → Reached .standard start s d →
        s.press .standard clock d "=" = ⟨result, s₁, d₁⟩ → s₁.display.text = r.shown →
        r.isFinite = true → ∀ (op : Operator) (w : Numeral),
          ((r.shown ++ op.text ++ w.string).length : Int) ≤
            Settings.standard.maxExpressionLength →
          ∃ outcome, Settles .standard (op.combine? r w.value) outcome ∧
            (s₁.pressAll .standard clock d₁ (continuation op w)).session.display.text =
              outcome.shown .standard := by
  intro h
  let zeroShown := Session.fresh.press .standard .midnight .inMemory "="
  obtain ⟨outcome, hs, htext⟩ := h .inMemory .inMemory zeroShown.desk .fresh zeroShown.session
    .midnight zeroShown.result (.zero false) rfl .fresh rfl (by decide +kernel) rfl
    .subtract (.digit 5) (by decide +kernel)
  have hfive : (zeroShown.session.pressAll .standard .midnight zeroShown.desk
      (continuation .subtract (.digit 5))).session.display.text = "5" := by decide +kernel
  have hround : ((Binary64.zero false - (Numeral.digit 5).value).roundForDisplay 8).toOption.map
      Binary64.shown = some "-5" := by decide +kernel
  have hfin : (Binary64.zero false - (Numeral.digit 5).value).isFinite = true := by decide +kernel
  have hdifference : Settles .standard
      (some (Binary64.zero false - (Numeral.digit 5).value)) outcome := hs
  generalize Binary64.zero false - (Numeral.digit 5).value = x at hround hfin hdifference
  rw [hfive] at htext
  cases hdifference with
  | overflow hinf => rw [hfin] at hinf; cases hinf
  | value _ hv =>
    have hplaces : x.roundForDisplay 8 = .ok _ := hv
    rw [hplaces] at hround
    exact absurd (htext.trans (Option.some.inj hround)) (by decide)

end PocketCalculator
