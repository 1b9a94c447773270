import PocketCalculator.Proofs.InMemory
import PocketCalculator.Proofs.Redisplay

/-! # Evaluating twice

What an evaluation shows stays when it is evaluated again: a skipped line and the error tag are
skipped again, and a result comes to itself (`evaluate_twice`). The exception is a result that is
longer than a line may be (`Outgrows`). A row of nines that is just short enough shows that there
are such results, for it is rounded up to a power of ten (`not_evaluate_twice`). -/

namespace PocketCalculator

variable {settings : Settings}

/-- A line whose result is refused when it is evaluated again. -/
def Outgrows (settings : Settings) (line : String) : Prop :=
  ∃ v, Takes settings line (.calculated v) ∧ Takes settings v.shown .refused

theorem answer_errorTag : answer settings settings.errorTag = settings.errorTag :=
  (Takes.skipped (Or.inr rfl)).answer_eq

/-- **The course of a result:** it comes to itself, unless it is the error tag or too long. -/
theorem Takes.shown_cases (hp : 0 ≤ settings.displayDecimals) {line : String} {v : Binary64}
    (h : Takes settings line (.calculated v)) :
    Takes settings v.shown .skipped ∨ Takes settings v.shown .refused ∨
      Takes settings v.shown (.calculated v) := by
  cases h with
  | calculated _ hcalc =>
    have hself := (isShort_of_calculate hp hcalc).calculate_shown hp
    obtain ⟨course, hshown⟩ := exists_takes hp v.shown
    cases hshown with
    | skipped hskip => exact Or.inl (.skipped hskip)
    | refused hblank htag hlong => exact Or.inr (Or.inl (.refused hblank htag hlong))
    | calculated hlet _ => exact Or.inr (Or.inr (.calculated hlet hself))
    | failed _ hfailed =>
      rw [hself] at hfailed
      cases hfailed

theorem answer_answer (hp : 0 ≤ settings.displayDecimals) {line : String}
    (h : ¬ Outgrows settings line) :
    answer settings (answer settings line) = answer settings line := by
  obtain ⟨course, hcourse⟩ := exists_takes hp line
  have hanswer := hcourse.answer_eq
  cases course with
  | skipped => rw [hanswer, Course.shown, hanswer, Course.shown]
  | refused => rw [hanswer, Course.shown, answer_errorTag]
  | failed kind => rw [hanswer, Course.shown, answer_errorTag]
  | calculated v =>
    rw [hanswer, Course.shown]
    rcases hcourse.shown_cases hp with hskip | hrefuse | hself
    · exact hskip.answer_eq
    · exact absurd ⟨v, hcourse, hrefuse⟩ h
    · exact hself.answer_eq

theorem answer_of_outgrows {line : String} (h : Outgrows settings line) :
    answer settings line ≠ settings.errorTag ∧
      answer settings (answer settings line) = settings.errorTag := by
  obtain ⟨v, hcourse, hrefuse⟩ := h
  rw [hcourse.answer_eq, Course.shown, hrefuse.answer_eq]
  cases hrefuse with
  | refused _ htag _ => exact ⟨htag, rfl⟩

/-- **Evaluating twice** leaves the session as evaluating once does, exactly when the result is not
too long to be evaluated again. Then it gives way to the error tag. -/
theorem evaluate_twice (hp : 0 ≤ settings.displayDecimals) (clock clock' : Readings) (s : Session)
    {d : Desk} (hd : d.history.path = none) :
    ∃ s₁ d₁ s₂ d₂, s.press settings clock d "=" = ⟨.ok (), s₁, d₁⟩ ∧
      s₁.press settings clock' d₁ "=" = ⟨.ok (), s₂, d₂⟩ ∧
      (s₂ = s₁ ↔ ¬ Outgrows settings s.display.text) ∧
      (Outgrows settings s.display.text → s₂.display.text = settings.errorTag) := by
  have hkey : (actionOf? "=").isSome = true := rfl
  obtain ⟨d₁, hpress₁, hd₁, -⟩ := Session.press_after hp clock s hd hkey
  obtain ⟨d₂, hpress₂, -, -⟩ := Session.press_after hp clock' (s.after settings "=") hd₁ hkey
  rw [s.after_evaluate] at hpress₁ hpress₂
  rw [Session.after_evaluate, Session.text_showing, Session.showing_showing] at hpress₂
  refine ⟨_, d₁, _, d₂, hpress₁, hpress₂, ⟨fun hsame h => ?_, fun h => ?_⟩, fun h => ?_⟩
  · obtain ⟨hne, htag⟩ := answer_of_outgrows h
    have htexts := congrArg (fun s : Session => s.display.text) hsame
    simp only [Session.text_showing, htag] at htexts
    exact hne htexts.symm
  · rw [answer_answer hp h]
  · rw [Session.text_showing, (answer_of_outgrows h).2]

/-- The line `-2/3` on the display. -/
def Session.showingFraction : Session := .start ⟨"-2/3"⟩

theorem evaluate_twice_fraction :
    0 ≤ Settings.standard.displayDecimals ∧ Desk.inMemory.history.path = none ∧
      ¬ Outgrows .standard Session.showingFraction.display.text ∧
      ∃ s₁ d₁ d₂,
        Session.showingFraction.press .standard .midnight .inMemory "=" = ⟨.ok (), s₁, d₁⟩ ∧
        s₁.press .standard .midnight d₁ "=" = ⟨.ok (), s₁, d₂⟩ := by
  have hp : 0 ≤ Settings.standard.displayDecimals := by decide
  have hshort : ¬ Outgrows .standard Session.showingFraction.display.text := by
    rintro ⟨v, hcourse, hrefuse⟩
    cases hcourse with
    | calculated _ hcalc =>
      have hv : v = negativeTwoThirds :=
        Outcome.value.inj (Except.ok.inj (hcalc.symm.trans calculate_negativeTwoThirds))
      rw [hv] at hrefuse
      cases hrefuse with
      | refused _ _ hlong => exact absurd hlong (by decide +kernel)
  obtain ⟨s₁, d₁, s₂, d₂, hpress₁, hpress₂, hsame, -⟩ :=
    evaluate_twice hp .midnight .midnight Session.showingFraction (d := .inMemory) rfl
  obtain rfl := hsame.mpr hshort
  exact ⟨hp, rfl, hshort, s₂, d₁, d₂, hpress₁, hpress₂⟩

/-! ### A result that is too long -/

/-- The longest row of nines that is let through. -/
def nines : Numeral where
  whole := List.replicate 256 '9'
  fraction := none
  whole_digits := by
    intro c hc
    rw [List.eq_of_mem_replicate hc]
    rfl
  fraction_digits := isDigit_of_mem_nil
  has_digit := Or.inl (List.cons_ne_nil '9' (List.replicate 255 '9'))

/-- The double nearest to `10 ^ 256`. -/
def tenTo256 : Binary64 := Decimal.toBinary64 ⟨false, 1, 256⟩

theorem length_nines : nines.string.length = 256 := by
  rw [Numeral.string, String.length_ofList]
  exact List.length_replicate

theorem letThrough_nines : LetThrough .standard nines.string where
  not_blank := by
    have hmem : '9' ∈ nines.string.toList := by
      rw [nines.toList_string]
      exact List.mem_replicate.mpr ⟨by decide, rfl⟩
    exact isBlankText_of_mem hmem (by decide)
  ne_errorTag := by
    intro h
    have hlength := congrArg String.length h
    rw [length_nines] at hlength
    exact absurd hlength (by decide)
  length_le := by
    rw [length_nines]
    decide

theorem calculate_nines : calculate .standard nines.string = .ok (.value tenTo256) := by
  have hvalue : nines.value = tenTo256 := by decide +kernel
  have hround : tenTo256.roundForDisplay 8 = .ok tenTo256 := eq_ok_of_toOption (by decide +kernel)
  have hfin : tenTo256.isFinite = true := by decide +kernel
  have hp : 0 ≤ Settings.standard.displayDecimals := by decide
  obtain ⟨outcome, hcalc, hs⟩ := calculate_numeral hp nines
  rw [hvalue] at hs
  rw [hcalc]
  generalize tenTo256 = x at hround hfin hs
  cases hs with
  | overflow hinf =>
    rw [hfin] at hinf
    cases hinf
  | value _ hv =>
    have hplaces : x.roundForDisplay 8 = .ok _ := hv
    rw [hround] at hplaces
    cases hplaces
    rfl

theorem Binary64.length_shown_of_plain {x : Binary64} {n : Nat}
    (h : (match x with
      | finite s m _ => (Decimal.signed (s && m != 0) (shortestDecimal s m).plain).length == n
      | _ => false) = true) : x.shown.length = n := by
  cases x with
  | finite s m hm => exact String.length_ofList.trans (beq_iff_eq.mp h)
  | infinite s => cases h
  | nan => cases h

theorem length_shown_tenTo256 : tenTo256.shown.length = 257 :=
  Binary64.length_shown_of_plain (by decide +kernel)

theorem outgrows_nines : Outgrows .standard nines.string := by
  refine ⟨tenTo256, .calculated letThrough_nines calculate_nines, .refused ?_ ?_ ?_⟩
  · exact isBlankText_shown (by decide +kernel)
  · intro h
    have hlength := congrArg String.length h
    rw [length_shown_tenTo256] at hlength
    exact absurd hlength (by decide)
  · rw [length_shown_tenTo256]
    decide

/-- Evaluating twice is not evaluating once: the result of the nines is too long. -/
theorem not_evaluate_twice :
    ¬ ∀ (s : Session) (d : Desk) (clock : Readings), d.history.path = none →
      ∃ s₁ d₁ s₂ d₂, s.press .standard clock d "=" = ⟨.ok (), s₁, d₁⟩ ∧
        s₁.press .standard clock d₁ "=" = ⟨.ok (), s₂, d₂⟩ ∧
        s₂.display.text = s₁.display.text := by
  intro h
  have hp : 0 ≤ Settings.standard.displayDecimals := by decide
  have hkey : (actionOf? "=").isSome = true := rfl
  obtain ⟨s₁, d₁, s₂, d₂, hpress₁, hpress₂, hsame⟩ :=
    h (.start ⟨nines.string⟩) .inMemory .midnight rfl
  obtain ⟨s₁', d₁', hfirst, htext₁, hd₁⟩ :=
    Session.press_inMemory hp .midnight (.start ⟨nines.string⟩) (d := .inMemory) rfl hkey
  rw [hfirst] at hpress₁
  cases hpress₁
  obtain ⟨s₂', d₂', hsecond, htext₂, -⟩ := Session.press_inMemory hp .midnight s₁ hd₁ hkey
  rw [hsecond] at hpress₂
  cases hpress₂
  have hanswer₁ : s₁.display.text = answer .standard nines.string := htext₁
  have hanswer₂ : s₂.display.text = answer .standard s₁.display.text := htext₂
  obtain ⟨hne, htag⟩ := answer_of_outgrows outgrows_nines
  rw [hanswer₂, hanswer₁, htag] at hsame
  exact hne hsame.symm

end PocketCalculator
