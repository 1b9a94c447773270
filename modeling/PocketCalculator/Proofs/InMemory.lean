import PocketCalculator.Keypad.Session
import PocketCalculator.Proofs.Course
import PocketCalculator.Proofs.ReadBack

/-! # Sessions with a history in memory

Without a file nothing can go wrong: every key goes through. The text on the display after it
depends on the text before it only (`textAfter`), and the history gains an entry where an evaluation
succeeds (`Succeeds`). The step lemma is `press_after`; of it `press_inMemory` keeps the text, for
the run lemma `pressAll_inMemory`. `Reached` are the sessions that keys lead to, at whatever times
they are pressed; their display is never blank (`Reached.isBlankText_text`). -/

namespace PocketCalculator

variable {settings : Settings}

/-- The text that an evaluation leaves on the display. -/
def answer (settings : Settings) (line : String) : String :=
  if skips settings line then line
  else if (refusal? settings line).isSome then settings.errorTag
  else
    match calculate settings line with
    | .ok (.value x) => x.shown
    | _ => settings.errorTag

/-- The text that a key leaves on the display. -/
def textAfter (settings : Settings) (text symbol : String) : String :=
  match actionOf? symbol with
  | some .evaluate => answer settings text
  | some .clear => Display.initialText
  | some .toggleHistory | none => text
  | some .appendDigit | some .appendOperator => (Display.append settings ⟨text⟩ symbol).text

theorem answer_of_outcome {line : String} (hlet : LetThrough settings line) {outcome : Outcome}
    (h : calculate settings line = .ok outcome) :
    answer settings line = outcome.shown settings := by
  rw [answer, if_neg hlet.not_skips, if_neg hlet.not_refused, h]
  cases outcome <;> rfl

theorem Takes.answer_eq {line : String} {course : Course} (h : Takes settings line course) :
    answer settings line = course.shown settings line := by
  cases h with
  | skipped h => exact if_pos (skips_eq_true_iff.mpr h)
  | refused hblank htag hlong =>
    rw [answer, if_neg (not_skips hblank htag), if_pos (isSome_refusal? hlong)]
    rfl
  | failed hlet hcalc => exact answer_of_outcome hlet hcalc
  | calculated hlet hcalc => exact answer_of_outcome hlet hcalc

/-! ### One key -/

theorem Desk.canSave_of_path_eq_none {d : Desk} (hd : d.history.path = none) : d.CanSave := by
  intro entries
  refine ⟨d.files, ?_⟩
  simp only [History.save, hd]

/-- A desk with an empty history in memory. -/
def Desk.inMemory : Desk := ⟨⟨none, 50, []⟩, .empty, .empty 200, .start .initial⟩

theorem actionOf?_eq_evaluate_iff {symbol : String} :
    actionOf? symbol = some .evaluate ↔ symbol = "=" := by
  have hall : ∀ key ∈ keypad, key.2 = .evaluate → key.1 = "=" := by decide
  constructor
  · intro h
    obtain ⟨before, after, hkeys, -⟩ := List.lookup_eq_some_iff.mp h
    exact hall (symbol, .evaluate) (by rw [hkeys]; simp) rfl
  · rintro rfl
    rfl

/-- A line that an evaluation records. -/
def Succeeds (settings : Settings) (line : String) : Prop :=
  LetThrough settings line ∧ ∃ v, calculate settings line = .ok (.value v)

theorem Takes.succeeds_iff {line : String} {course : Course} (h : Takes settings line course) :
    Succeeds settings line ↔ ∃ v, course = .calculated v := by
  constructor
  · rintro ⟨hlet, v, hcalc⟩
    exact ⟨v, h.unique (.calculated hlet hcalc)⟩
  · rintro ⟨v, rfl⟩
    cases h with
    | calculated hlet hcalc => exact ⟨hlet, v, hcalc⟩

instance (line : String) : Decidable (LetThrough settings line) :=
  decidable_of_iff (isBlankText line = false ∧ line ≠ settings.errorTag ∧
      (line.length : Int) ≤ settings.maxExpressionLength)
    ⟨fun h => ⟨h.1, h.2.1, h.2.2⟩, fun h => ⟨h.not_blank, h.ne_errorTag, h.length_le⟩⟩

instance (line : String) : Decidable (Succeeds settings line) :=
  decidable_of_iff (LetThrough settings line ∧
      ((calculate settings line).toOption.bind Outcome.value?).isSome = true) <| by
    rw [Succeeds]
    rcases calculate settings line with _ | _ | _ <;> simp [Outcome.value?, Except.toOption]

namespace Session

@[simp] theorem text_showing (s : Session) (text : String) :
    (s.showing text).display.text = text := rfl

@[simp] theorem showing_showing (s : Session) (text text' : String) :
    (s.showing text).showing text' = s.showing text' := rfl

/-- The session that a key leaves. -/
def after (settings : Settings) (s : Session) (symbol : String) : Session where
  display := ⟨textAfter settings s.display.text symbol⟩
  historyVisible :=
    if actionOf? symbol = some .toggleHistory then !s.historyVisible else s.historyVisible

theorem after_evaluate (s : Session) :
    s.after settings "=" = s.showing (answer settings s.display.text) := by
  have hkey : actionOf? "=" = some .evaluate := actionOf?_eq_evaluate_iff.mpr rfl
  rw [after, textAfter, hkey]
  rfl

/-- The text on the display gives way to what its course shows. -/
theorem evaluate_takes (clock : Readings) (s : Session) {d : Desk} {course : Course}
    (hd : ∀ v, course = .calculated v → d.CanSave)
    (h : Takes settings s.display.text course) :
    ∃ d', s.evaluate settings clock d =
        ⟨.ok (), s.showing (course.shown settings s.display.text), d'⟩ ∧
      course.Leaves settings clock s.display.text d d' := by
  obtain ⟨d', hrun, hleaves⟩ := (Evaluation.start s.display.text).run_follows clock hd h
  refine ⟨d', ?_, hleaves⟩
  rw [evaluate, hrun]
  cases course <;> rfl

/-- **The step of a key:** it goes through and leaves its session, and the history gains an entry
where an evaluation succeeds. -/
theorem press_after (hp : 0 ≤ settings.displayDecimals) (clock : Readings) (s : Session) {d : Desk}
    (hd : d.history.path = none) {symbol : String} (hb : (actionOf? symbol).isSome = true) :
    ∃ d', s.press settings clock d symbol = ⟨.ok (), s.after settings symbol, d'⟩ ∧
      d'.history.path = none ∧
      d'.history =
        if symbol = "=" ∧ Succeeds settings s.display.text then
          d.history.insert
            (.ofTexts clock.recorded s.display.text (s.after settings symbol).display.text)
        else d.history := by
  by_cases heq : symbol = "="
  · subst heq
    obtain ⟨course, h⟩ := exists_takes hp s.display.text
    have hsave : (d.note (keyNotes "=" .evaluate)).CanSave := Desk.canSave_of_path_eq_none hd
    obtain ⟨d', heval, hleaves⟩ := evaluate_takes clock s (fun _ _ => hsave) h
    have hafter : s.after settings "=" = s.showing (course.shown settings s.display.text) := by
      rw [after_evaluate, h.answer_eq]
    refine ⟨d', by rw [hafter]; exact heval, ?_⟩
    by_cases hs : Succeeds settings s.display.text
    · obtain ⟨v, rfl⟩ := h.succeeds_iff.mp hs
      rw [if_pos ⟨rfl, hs⟩, hafter, (hleaves.recorded v rfl).1]
      exact ⟨hd, rfl⟩
    · have hne : ∀ v, course ≠ .calculated v := fun v hv => hs (h.succeeds_iff.mpr ⟨v, hv⟩)
      rw [if_neg fun hboth => hs hboth.2, (hleaves.kept hne).1]
      exact ⟨hd, rfl⟩
  · rw [if_neg fun hboth => heq hboth.1]
    unfold press after textAfter
    rcases ha : actionOf? symbol with _ | action
    · rw [ha] at hb
      cases hb
    · cases action with
      | evaluate => exact absurd (actionOf?_eq_evaluate_iff.mp ha) heq
      | appendDigit => exact ⟨_, rfl, hd, rfl⟩
      | appendOperator => exact ⟨_, rfl, hd, rfl⟩
      | clear => exact ⟨_, rfl, hd, rfl⟩
      | toggleHistory => exact ⟨_, rfl, hd, rfl⟩

theorem press_inMemory (hp : 0 ≤ settings.displayDecimals) (clock : Readings) (s : Session)
    {d : Desk} (hd : d.history.path = none) {symbol : String}
    (hb : (actionOf? symbol).isSome = true) :
    ∃ s' d', s.press settings clock d symbol = ⟨.ok (), s', d'⟩ ∧
      s'.display.text = textAfter settings s.display.text symbol ∧ d'.history.path = none := by
  obtain ⟨d', hpress, hd', -⟩ := press_after hp clock s hd hb
  exact ⟨_, d', hpress, rfl, hd'⟩

/-- **The run of a row of keys.** -/
theorem pressAll_inMemory (hp : 0 ≤ settings.displayDecimals) (clock : Readings) :
    ∀ (symbols : List String) (s : Session) {d : Desk}, d.history.path = none →
      (∀ symbol ∈ symbols, (actionOf? symbol).isSome = true) →
        ∃ s' d', s.pressAll settings clock d symbols = ⟨.ok (), s', d'⟩ ∧
          s'.display.text = symbols.foldl (textAfter settings) s.display.text ∧
            d'.history.path = none
  | [], s, d, hd, _ => ⟨s, d, rfl, rfl, hd⟩
  | symbol :: symbols, s, d, hd, hb => by
    obtain ⟨s₁, d₁, hpress, htext, hd₁⟩ := press_inMemory hp clock s hd (hb symbol (by simp))
    obtain ⟨s₂, d₂, hall, htext₂, hd₂⟩ := pressAll_inMemory hp clock symbols s₁ hd₁
      fun symbol hmem => hb symbol (List.mem_cons_of_mem _ hmem)
    refine ⟨s₂, d₂, ?_, ?_, hd₂⟩
    · rw [pressAll, hpress]
      exact hall
    · rw [htext₂, htext, List.foldl_cons]

end Session

/-! ### The sessions that keys lead to -/

/-- **The sessions and desks that are reached** from a fresh session by keys, pressed at any
times. -/
inductive Reached (settings : Settings) (start : Desk) : Session → Desk → Prop where
  | fresh : Reached settings start .fresh start
  | press {s : Session} {d : Desk} (h : Reached settings start s d) (clock : Readings)
      {symbol : String} (hb : (actionOf? symbol).isSome = true) :
      Reached settings start (s.press settings clock d symbol).session
        (s.press settings clock d symbol).desk

theorem Reached.pressAll {start : Desk} (clock : Readings) :
    ∀ (symbols : List String) {s : Session} {d : Desk},
      (∀ symbol ∈ symbols, (actionOf? symbol).isSome = true) → Reached settings start s d →
        Reached settings start (s.pressAll settings clock d symbols).session
          (s.pressAll settings clock d symbols).desk
  | [], _, _, _, h => h
  | symbol :: symbols, s, d, hb, h => by
    have hstep := h.press clock (hb symbol (by simp))
    unfold Session.pressAll
    split
    · next s₁ d₁ hpress =>
      rw [hpress] at hstep
      exact pressAll clock symbols (fun symbol hmem => hb symbol (List.mem_cons_of_mem _ hmem))
        hstep
    · exact hstep

theorem isBlankText_of_mem {text : String} {c : Char} (hc : c ∈ text.toList)
    (hb : isBlank c = false) : isBlankText text = false := by
  refine Bool.not_eq_true _ ▸ fun h => ?_
  rw [isBlankText, List.all_eq_true] at h
  rw [h c hc] at hb
  cases hb

theorem isBlankText_append {text : String} (h : isBlankText text = false) (symbol : String) :
    isBlankText (text ++ symbol) = false := by
  rw [isBlankText, String.toList_append, List.all_append, ← isBlankText, h, Bool.false_and]

theorem isBlankText_shown {x : Binary64} (hx : x.isFinite = true) :
    isBlankText x.shown = false := by
  obtain ⟨s, m, hm, rfl⟩ := Binary64.exists_of_isFinite hx
  obtain ⟨c, hc, hb⟩ := Binary64.exists_mem_shown (P := fun c => isBlank c = false) s hm
    (by decide)
  exact isBlankText_of_mem hc hb

section Blank
variable (hp : 0 ≤ settings.displayDecimals) (htag : isBlankText settings.errorTag = false)
include hp htag

theorem isBlankText_answer {line : String} (h : isBlankText line = false) :
    isBlankText (answer settings line) = false := by
  obtain ⟨outcome, hcalc, hout⟩ := exists_calculate hp line
  unfold answer
  split
  · exact h
  · split
    · exact htag
    · rw [hcalc]
      cases hout with
      | value hfin => exact isBlankText_shown hfin
      | failed => exact htag

omit hp htag in
theorem isBlankText_symbol {symbol : String} (hb : (actionOf? symbol).isSome = true) :
    isBlankText symbol = false := by
  have hall : ∀ key ∈ keypad, isBlankText key.1 = false := by decide
  obtain ⟨action, ha⟩ := Option.isSome_iff_exists.mp hb
  obtain ⟨before, after, hkeys, -⟩ := List.lookup_eq_some_iff.mp ha
  exact hall (symbol, action) (by rw [hkeys]; simp)

theorem isBlankText_textAfter {text symbol : String} (hb : (actionOf? symbol).isSome = true)
    (h : isBlankText text = false) : isBlankText (textAfter settings text symbol) = false := by
  have hsymbol := isBlankText_symbol hb
  have happend : isBlankText (Display.append settings ⟨text⟩ symbol).text = false := by
    unfold Display.append
    split
    · split
      · exact h
      · exact hsymbol
    · split
      · exact h
      · exact isBlankText_append h symbol
  unfold textAfter
  split
  · exact isBlankText_answer hp htag h
  · decide
  · exact h
  · exact h
  · exact happend
  · exact happend

end Blank

namespace Reached

variable {start d : Desk} {s : Session}

theorem path_eq_none (hp : 0 ≤ settings.displayDecimals) (hstart : start.history.path = none)
    (h : Reached settings start s d) : d.history.path = none := by
  induction h with
  | fresh => exact hstart
  | press h clock hb ih =>
    obtain ⟨s', d', hpress, -, hd'⟩ := Session.press_inMemory hp clock _ ih hb
    rw [hpress]
    exact hd'

theorem isBlankText_text (hp : 0 ≤ settings.displayDecimals)
    (htag : isBlankText settings.errorTag = false) (hstart : start.history.path = none)
    (h : Reached settings start s d) : isBlankText s.display.text = false := by
  induction h with
  | fresh => decide
  | press h clock hb ih =>
    obtain ⟨s', d', hpress, htext, -⟩ :=
      Session.press_inMemory hp clock _ (h.path_eq_none hp hstart) hb
    rw [hpress]
    show isBlankText s'.display.text = false
    rw [htext]
    exact isBlankText_textAfter hp htag hb ih

end Reached

end PocketCalculator
