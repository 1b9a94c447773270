import PocketCalculator.Calculation
import PocketCalculator.Proofs.Computations
import PocketCalculator.Proofs.Machine
import PocketCalculator.Proofs.Rounding
import PocketCalculator.Proofs.Scan

/-! # The outcome of a line

A line whose tokens are those of an expression comes to what the tree of the expression comes to
(`calculate_of_tokens`): the value rounded for the display, or the failure that a division by zero
was met, or that the value is not finite (`Settles`). Any line at all has an outcome, and its
failures are of five kinds (`exists_calculate`). -/

namespace PocketCalculator

/-- The settings where nothing is set from outside. -/
def Settings.standard : Settings where
  dataFolder := .ofString "/home/user/.rpncalc"
  historyFile := .ofString "/home/user/.rpncalc/history.json"
  historyLimit := 50
  displayDecimals := 8
  errorTag := "Error"
  maxExpressionLength := 256
  traceLimit := 200
  logLevel := "INFO"

theorem Settings.ofEnvironment_empty : Settings.ofEnvironment .empty = .ok .standard := rfl

/-- **What the value of an expression comes to;** none stands for a division by zero. -/
inductive Settles (settings : Settings) : Option Binary64 → Outcome → Prop where
  | divisionByZero : Settles settings none (.failed .divisionByZero .divisionByZero)
  | overflow {x : Binary64} (hx : x.isFinite = false) :
      Settles settings (some x) (.failed .numericOverflow (.notFinite x))
  | value {x v : Binary64} (hx : x.isFinite = true)
      (hv : x.roundForDisplay settings.displayDecimals = .ok v) :
      Settles settings (some x) (.value v)

theorem Tree.postorder_ne_nil {α : Type} (text : α → String) (t : Tree α) :
    t.postorder text ≠ [] := by
  cases t <;> simp [postorder]

theorem lineValue_eq {line : String} (h : tokensOf line ≠ []) :
    lineValue line = toPostfix (tokensOf line) >>= postfixValue := by
  obtain ⟨t, ts, ht⟩ := List.exists_cons_of_ne_nil h
  simp only [lineValue, tokenize, ht]
  rfl

theorem lineValue_of_nil {line : String} (h : tokensOf line = []) :
    lineValue line = .error (.noTokens line) := by
  simp only [lineValue, tokenize, h]
  rfl

theorem tokensOf_ne_nil {line : String} {t : Token} {ts : List Token}
    (h : toPostfix (tokensOf line) = .ok (t :: ts)) : tokensOf line ≠ [] := by
  intro hnil
  rw [hnil] at h
  cases h

/-! ### Lines with a tree -/

section Tree

variable {α : Type} {text : α → String} {value : α → Binary64}
variable (hread : ∀ a, Binary64.ofText? (text a) = some (value a))
include hread

theorem lineValue_of_tree {line : String} {t : Tree α}
    (h : toPostfix (tokensOf line) = .ok (t.postorder text)) :
    lineValue line =
      match t.value? value with
      | some x => if x.isFinite then .ok x else .error (.notFinite x)
      | none => .error .divisionByZero := by
  obtain ⟨first, rest, hcons⟩ := List.exists_cons_of_ne_nil (t.postorder_ne_nil text)
  have hne := tokensOf_ne_nil (hcons ▸ h)
  rw [lineValue_eq hne, h]
  exact postfixValue_postorder hread t

theorem calculate_of_tree {settings : Settings} (hp : 0 ≤ settings.displayDecimals) {line : String}
    {t : Tree α} (h : toPostfix (tokensOf line) = .ok (t.postorder text)) :
    ∃ outcome, calculate settings line = .ok outcome ∧
      Settles settings (t.value? value) outcome := by
  have hv := lineValue_of_tree hread h
  unfold calculate
  rw [hv]
  rcases t.value? value with _ | x
  · exact ⟨_, rfl, .divisionByZero⟩
  · simp only
    rcases hx : x.isFinite with _ | _
    · exact ⟨_, rfl, .overflow hx⟩
    · obtain ⟨v, hround, -, -⟩ := Binary64.exists_roundForDisplay hp hx
      refine ⟨.value v, ?_, .value hx hround⟩
      simp only [if_true, hround]

/-- **The outcome of a line with the tokens of an expression.** -/
theorem calculate_of_tokens {settings : Settings} (hp : 0 ≤ settings.displayDecimals)
    {line : String} {e : Phrase α .sum} (h : tokensOf line = e.tokens text) :
    ∃ outcome, calculate settings line = .ok outcome ∧
      Settles settings (e.tree.value? value) outcome :=
  calculate_of_tree hread hp (by rw [h, e.toPostfix_tokens])

end Tree

/-! ### Any line -/

/-- The kinds of failure that a line can have. -/
def lineKinds : List FailureKind :=
  [.invalidExpression, .unbalancedParentheses, .malformedExpression, .divisionByZero,
    .numericOverflow]

/-- A line has a finite value or fails by one of five kinds. -/
theorem lineValue_cases (line : String) :
    (∃ x, lineValue line = .ok x ∧ x.isFinite = true) ∨
      ∃ cause kind, lineValue line = .error cause ∧ cause.kind? = some kind ∧
        kind ∈ lineKinds := by
  by_cases hne : tokensOf line = []
  · exact Or.inr ⟨_, _, lineValue_of_nil hne, rfl, by decide⟩
  have hts := isLineToken_of_mem_tokensOf line
  have hnest := toPostfix_nesting Numeral.string hts
  rw [lineValue_eq hne]
  match nesting? 0 (tokensOf line), hnest with
  | none, hnest => rw [hnest]; exact Or.inr ⟨_, _, rfl, rfl, by decide⟩
  | some (_ + 1), hnest => rw [hnest]; exact Or.inr ⟨_, _, rfl, rfl, by decide⟩
  | some 0, ⟨out, hout, hall⟩ =>
    rw [hout]
    rcases postfixValue_cases Numeral.ofText?_string hall with hx | ⟨cause, kind, hc, hk, hmem⟩
    · exact Or.inl hx
    · refine Or.inr ⟨cause, kind, hc, hk, ?_⟩
      rcases hmem with rfl | rfl | rfl <;> decide

/-- What the outcome of a line is: a finite value that is not a negative zero, or a failure of one
of the five kinds. -/
inductive IsLineOutcome : Outcome → Prop where
  | value {v : Binary64} (hfin : v.isFinite = true) (hz : v ≠ .zero true) :
      IsLineOutcome (.value v)
  | failed {kind : FailureKind} {cause : Failure} (hk : cause.kind? = some kind)
      (hmem : kind ∈ lineKinds) : IsLineOutcome (.failed kind cause)

theorem calculate_of_failure {settings : Settings} {line : String} {cause : Failure}
    {kind : FailureKind} (h : lineValue line = .error cause) (hk : cause.kind? = some kind) :
    calculate settings line = .ok (.failed kind cause) := by
  simp only [calculate, h, hk]

theorem exists_calculate_of_finite {settings : Settings} (hp : 0 ≤ settings.displayDecimals)
    {line : String} {x : Binary64} (h : lineValue line = .ok x) (hfin : x.isFinite = true) :
    ∃ v, calculate settings line = .ok (.value v) ∧ v.isFinite = true ∧ v ≠ .zero true := by
  obtain ⟨v, hv, hvfin, hvz⟩ := Binary64.exists_roundForDisplay hp hfin
  refine ⟨v, ?_, hvfin, hvz⟩
  simp only [calculate, h, hv]

/-- **Every line has an outcome.** -/
theorem exists_calculate {settings : Settings} (hp : 0 ≤ settings.displayDecimals)
    (line : String) : ∃ outcome, calculate settings line = .ok outcome ∧ IsLineOutcome outcome := by
  rcases lineValue_cases line with ⟨x, hx, hfin⟩ | ⟨cause, kind, hc, hk, hmem⟩
  · obtain ⟨v, hv, hvfin, hvz⟩ := exists_calculate_of_finite hp hx hfin
    exact ⟨.value v, hv, .value hvfin hvz⟩
  · exact ⟨.failed kind cause, calculate_of_failure hc hk, .failed hk hmem⟩

theorem isFinite_of_calculate {settings : Settings} {line : String} {v : Binary64}
    (h : calculate settings line = .ok (.value v)) : v.isFinite = true := by
  unfold calculate at h
  split at h
  · split at h
    · next hround =>
      cases h
      exact Binary64.isFinite_of_roundForDisplay hround
    · cases h
  · split at h <;> cases h

end PocketCalculator
