import PocketCalculator.Proofs.Endings
import PocketCalculator.Proofs.KeypadText

/-! # The error tag is a name

The display compares its text with the error tag, and so does the guard. A tag with a character that
no key types is not a text that the keypad makes, so that no line is taken for it
(`KeypadText.ne_of_untypable`). Two sessions under two such tags are then alike: they show the same
text of the keypad, or each its own tag (`Alike`). What a key leads to from alike sessions is alike,
or stopped by the same fault (`Alike.pressed`), and either both histories gain the same line and
result or neither gains any (`Alike.keyRecording`). `Led` are the sessions that the same keys lead
to, and `error_tag_name` is the run over them. -/

namespace PocketCalculator

variable {settings : Settings} {tag tag' : String}

/-- The settings with another error tag. -/
def Settings.tagged (settings : Settings) (tag : String) : Settings :=
  { settings with errorTag := tag }

/-- **A tag that cannot be typed:** one of its characters is not on the keypad. -/
def Untypable (tag : String) : Prop := ∃ c ∈ tag.toList, c ∉ keypadCharacters

/-! ### Texts that are not the tag -/

theorem KeypadText.ne_of_untypable {text : String} (h : KeypadText text.toList)
    (htag : Untypable tag) : text ≠ tag := by
  obtain ⟨c, hc, hout⟩ := htag
  rintro rfl
  exact hout (h.mem_keypad c hc)

theorem isFinite_of_courseOf {line : String} {v : Binary64}
    (h : courseOf settings line = .ok (.calculated v)) : v.isFinite = true := by
  cases takes_of_courseOf h with
  | calculated _ hcalc => exact isFinite_of_calculate hcalc

theorem courseOf_tag (settings : Settings) (tag : String) :
    courseOf (settings.tagged tag) tag = .ok .skipped :=
  if_pos (.inr rfl)

section Other
variable {text : String} (h : KeypadText text.toList) (htag : Untypable tag)
  (htag' : Untypable tag')
include h htag htag'

/-- A line of the keypad takes the same course under both tags. -/
theorem KeypadText.courseOf_tagged (settings : Settings) :
    courseOf (settings.tagged tag) text = courseOf (settings.tagged tag') text := by
  have hskip : (isBlankText text = true ∨ text = tag) ↔
      (isBlankText text = true ∨ text = tag') :=
    or_congr_right (iff_of_false (h.ne_of_untypable htag) (h.ne_of_untypable htag'))
  unfold courseOf
  exact if_congr hskip rfl rfl

theorem KeypadText.append_tagged (settings : Settings) (symbol : String) :
    Display.append (settings.tagged tag) ⟨text⟩ symbol =
      Display.append (settings.tagged tag') ⟨text⟩ symbol := by
  have hfresh : (text = Display.initialText ∨ text = tag) ↔
      (text = Display.initialText ∨ text = tag') :=
    or_congr_right (iff_of_false (h.ne_of_untypable htag) (h.ne_of_untypable htag'))
  unfold Display.append
  exact if_congr hfresh rfl rfl

end Other

theorem append_tag (settings : Settings) (htag : Untypable tag) {d : Display}
    (htext : d.text = tag) (symbol : String) :
    d.append (settings.tagged tag) symbol = ⟨symbol⟩ := by
  have hne : tag ≠ Display.initialText := (KeypadText.initialText.ne_of_untypable htag).symm
  unfold Display.append
  rw [htext, if_pos (.inr rfl), if_neg fun h => hne h.1]

/-! ### Alike sessions -/

/-- **Sessions that are alike** under two tags. -/
structure Alike (tag tag' : String) (s s' : Session) : Prop where
  historyVisible_eq : s.historyVisible = s'.historyVisible
  display : s.display = s'.display ∧ KeypadText s.display.text.toList ∨
    s.display.text = tag ∧ s'.display.text = tag'

/-- **Ends that are alike:** a fault stops both, or alike sessions are left. -/
inductive AlikeEnds (tag tag' : String) : Except Fault Session → Except Fault Session → Prop where
  | stopped (fault : Fault) : AlikeEnds tag tag' (.error fault) (.error fault)
  | left {s s' : Session} (h : Alike tag tag' s s') : AlikeEnds tag tag' (.ok s) (.ok s')

theorem AlikeEnds.getD {x x' : Except Fault Session} {s s' : Session}
    (hends : AlikeEnds tag tag' x x') (h : Alike tag tag' s s') :
    Alike tag tag' (x.toOption.getD s) (x'.toOption.getD s') := by
  cases hends with
  | stopped => exact h
  | left h => exact h

namespace Alike

variable {s s' : Session}

theorem fresh : Alike tag tag' .fresh .fresh :=
  ⟨rfl, .inl ⟨rfl, KeypadText.initialText⟩⟩

variable (htag : Untypable tag) (htag' : Untypable tag') (h : Alike tag tag' s s')
include htag htag' h

theorem evaluate (settings : Settings) :
    AlikeEnds tag tag' (s.pressed (settings.tagged tag) "=")
      (s'.pressed (settings.tagged tag') "=") := by
  have hkey : actionOf? "=" = some .evaluate := actionOf?_eq_evaluate_iff.mpr rfl
  rw [Session.pressed, Session.pressed, hkey]
  rcases h.display with ⟨hsame, htext⟩ | ⟨hleft, hright⟩
  · have hcourse := htext.courseOf_tagged htag htag' settings
    simp only [← hsame, ← hcourse]
    cases hends : courseOf (settings.tagged tag) s.display.text with
    | error fault => exact .stopped fault
    | ok course =>
      refine .left ⟨h.historyVisible_eq, ?_⟩
      cases course with
      | skipped => exact .inl ⟨rfl, htext⟩
      | refused => exact .inr ⟨rfl, rfl⟩
      | failed => exact .inr ⟨rfl, rfl⟩
      | calculated v => exact .inl ⟨rfl, .shown (isFinite_of_courseOf hends)⟩
  · simp only [hleft, hright, courseOf_tag]
    exact .left ⟨h.historyVisible_eq, .inr ⟨rfl, rfl⟩⟩

theorem append (settings : Settings) {c : Char} (hc : c ∈ keypadCharacters) :
    Alike tag tag'
      { s with display := s.display.append (settings.tagged tag) (String.singleton c) }
      { s' with display := s'.display.append (settings.tagged tag') (String.singleton c) } := by
  refine ⟨h.historyVisible_eq, .inl ?_⟩
  rcases h.display with ⟨hsame, htext⟩ | ⟨hleft, hright⟩
  · exact ⟨hsame ▸ htext.append_tagged htag htag' settings _, htext.append _ hc⟩
  · rw [append_tag settings htag hleft, append_tag settings htag' hright]
    refine ⟨rfl, ?_⟩
    rw [String.toList_singleton]
    exact .singleton hc

/-- **The step of a key:** its ends are alike. -/
theorem pressed (settings : Settings) (symbol : String) :
    AlikeEnds tag tag' (s.pressed (settings.tagged tag) symbol)
      (s'.pressed (settings.tagged tag') symbol) := by
  by_cases heq : symbol = "="
  · subst heq
    exact h.evaluate htag htag' settings
  unfold Session.pressed
  cases ha : actionOf? symbol with
  | none => exact .stopped _
  | some action =>
    cases action with
    | evaluate => exact absurd (actionOf?_eq_evaluate_iff.mp ha) heq
    | appendDigit =>
      obtain ⟨c, hc, rfl⟩ := exists_keypadCharacter ha (.inl rfl)
      exact .left (h.append htag htag' settings hc)
    | appendOperator =>
      obtain ⟨c, hc, rfl⟩ := exists_keypadCharacter ha (.inr rfl)
      exact .left (h.append htag htag' settings hc)
    | clear => exact .left ⟨h.historyVisible_eq, .inl ⟨rfl, KeypadText.initialText⟩⟩
    | toggleHistory => exact .left ⟨congrArg (!·) h.historyVisible_eq, h.display⟩

/-- **The step of a key on the histories:** they gain the same, if anything. -/
theorem keyRecording (settings : Settings) (clock clock' : Readings) (symbol : String)
    {past past' : History} (hpast : past.SameColumns past') :
    (s.keyRecording (settings.tagged tag) clock symbol past).SameColumns
      (s'.keyRecording (settings.tagged tag') clock' symbol past') := by
  unfold Session.keyRecording
  split
  · rcases h.display with ⟨hsame, htext⟩ | ⟨hleft, hright⟩
    · rw [← hsame]
      exact hpast.recording (htext.courseOf_tagged htag htag' settings) clock clock'
    · rw [hleft, hright, History.recording, History.recording, courseOf_tag, courseOf_tag]
      exact hpast
  · exact hpast

end Alike

/-! ### The same keys -/

/-- **Two sessions that the same keys lead to,** each from a fresh one on its own desk and at its
own times; a key that is stopped leaves its session as it was. -/
inductive Led (settings settings' : Settings) (start start' : Desk) :
    Session → Desk → Session → Desk → Prop where
  | fresh : Led settings settings' start start' .fresh start .fresh start'
  | press {s s' : Session} {d d' : Desk} (h : Led settings settings' start start' s d s' d')
      (clock clock' : Readings) {symbol : String} (hb : (actionOf? symbol).isSome = true) :
      Led settings settings' start start'
        (s.press settings clock d symbol).session (s.press settings clock d symbol).desk
        (s'.press settings' clock' d' symbol).session (s'.press settings' clock' d' symbol).desk

theorem Led.pressAll {settings settings' : Settings} {start start' : Desk}
    (clock clock' : Readings) :
    ∀ (symbols : List String) {s s' : Session} {d d' : Desk},
      (∀ symbol ∈ symbols, (actionOf? symbol).isSome = true) →
      (s.pressAll settings clock d symbols).result = .ok () →
      (s'.pressAll settings' clock' d' symbols).result = .ok () →
      Led settings settings' start start' s d s' d' →
        Led settings settings' start start'
          (s.pressAll settings clock d symbols).session (s.pressAll settings clock d symbols).desk
          (s'.pressAll settings' clock' d' symbols).session
          (s'.pressAll settings' clock' d' symbols).desk
  | [], _, _, _, _, _, _, _, h => h
  | symbol :: symbols, s, s', d, d', hb, hok, hok', h => by
    have hstep := h.press clock clock' (hb symbol List.mem_cons_self)
    unfold Session.pressAll at hok hok' ⊢
    split at hok
    · next s₁ d₁ hpress =>
      split at hok'
      · next s₁' d₁' hpress' =>
        rw [hpress, hpress'] at hstep
        exact pressAll clock clock' symbols
          (fun symbol hmem => hb symbol (List.mem_cons_of_mem _ hmem)) hok hok' hstep
      · next hstopped =>
        exact absurd hok' fun hthrough => hstopped _ _ (by rw [← hthrough])
    · next hstopped =>
      exact absurd hok fun hthrough => hstopped _ _ (by rw [← hthrough])

/-- **The run of the keys.** -/
theorem Led.alike {start start' d d' : Desk} {s s' : Session} (htag : Untypable tag)
    (htag' : Untypable tag') (hstart : start.history.path = none)
    (hstart' : start'.history.path = none) (hsame : start.history.SameColumns start'.history)
    (h : Led (settings.tagged tag) (settings.tagged tag') start start' s d s' d') :
    Alike tag tag' s s' ∧ d.history.SameColumns d'.history ∧
      d.history.path = none ∧ d'.history.path = none := by
  induction h with
  | fresh => exact ⟨.fresh, hsame, hstart, hstart'⟩
  | @press s s' d d' _ clock clock' symbol _ ih =>
    obtain ⟨halike, hpast, hpath, hpath'⟩ := ih
    have hcan : s.Calculates (settings.tagged tag) symbol → d.CanSave :=
      fun _ => Desk.canSave_of_path_eq_none hpath
    have hcan' : s'.Calculates (settings.tagged tag') symbol → d'.CanSave :=
      fun _ => Desk.canSave_of_path_eq_none hpath'
    obtain ⟨left, hpress, -, hhistory⟩ := s.press_ends clock hcan
    obtain ⟨left', hpress', -, hhistory'⟩ := s'.press_ends clock' hcan'
    have hkept := halike.keyRecording htag htag' settings clock clock' symbol hpast
    rw [← hhistory, ← hhistory'] at hkept
    rw [hpress, hpress']
    refine ⟨(halike.pressed htag htag' settings symbol).getD halike, hkept, ?_, ?_⟩
    · rw [hhistory, Session.path_keyRecording, hpath]
    · rw [hhistory', Session.path_keyRecording, hpath']

/-- **The error tag is a name:** under two tags that cannot be typed, the same keys lead fresh
sessions with histories in memory to the same text on both displays, or to either tag on its own;
and the histories hold the same lines and results in the same order. -/
theorem error_tag_name {start start' d d' : Desk} {s s' : Session} (htag : Untypable tag)
    (htag' : Untypable tag') (hstart : start.history.path = none)
    (hstart' : start'.history.path = none) (hsame : start.history.SameColumns start'.history)
    (h : Led (settings.tagged tag) (settings.tagged tag') start start' s d s' d') :
    (s.display.text = s'.display.text ∨ s.display.text = tag ∧ s'.display.text = tag') ∧
      d.history.entries.map Entry.columns = d'.history.entries.map Entry.columns := by
  obtain ⟨halike, hpast, -⟩ := h.alike htag htag' hstart hstart' hsame
  exact ⟨halike.display.imp_left fun hboth => congrArg Display.text hboth.1, hpast.columns_eq⟩

/-- The keys of a result that is divided by zero. -/
def divisionKeys : List String := Session.keysOf "1=/0="

theorem error_tag_name_division : ∃ s d s' d',
    Untypable "Error" ∧ Untypable "?" ∧ Desk.inMemory.history.path = none ∧
    Led (Settings.standard.tagged "Error") (Settings.standard.tagged "?") .inMemory .inMemory
      s d s' d' ∧
    s.display.text = "Error" ∧ s'.display.text = "?" ∧ d.history.entries.length = 1 ∧
    d.history.entries.map Entry.columns = d'.history.entries.map Entry.columns := by
  have htag : Untypable "Error" := ⟨'E', by decide, by decide⟩
  have htag' : Untypable "?" := ⟨'?', by decide, by decide⟩
  have hkeys : ∀ symbol ∈ divisionKeys, (actionOf? symbol).isSome = true := by decide
  have hled := Led.pressAll .midnight .midnight divisionKeys hkeys
    (eq_ok_of_toOption (by decide +kernel)) (eq_ok_of_toOption (by decide +kernel))
    (Led.fresh : Led (Settings.standard.tagged "Error") (Settings.standard.tagged "?")
      .inMemory .inMemory _ _ _ _)
  obtain ⟨-, hcolumns⟩ := error_tag_name htag htag' rfl rfl (.refl _) hled
  exact ⟨_, _, _, _, htag, htag', rfl, hled, by decide +kernel, by decide +kernel,
    by decide +kernel, hcolumns⟩

end PocketCalculator
