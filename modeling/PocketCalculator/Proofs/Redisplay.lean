import PocketCalculator.Proofs.ResultLine

/-! # A shown result comes to itself

What is rounded for the display has no more places than are shown: a decimal with so many places
reads back as it, and its shortest decimal ends no later (`isShort_of_roundForDisplay`). So it is
not rounded a second time (`roundForDisplay_idem`). The line of a shown number with nothing behind
it comes to the number itself, so that a shown result comes to itself (`calculate_shown_self`). -/

namespace PocketCalculator

variable {settings : Settings}

/-! ### Rounding twice -/

namespace Binary64

/-- A double that is shown as it is: without the sign of a zero, and with few enough places. -/
def IsShort (places : Int) : Binary64 → Prop
  | finite s m _ => (m = 0 → s = false) ∧ -(shortestDecimal s m).exponent ≤ places
  | _ => False

theorem IsShort.isFinite {places : Int} {x : Binary64} (h : x.IsShort places) :
    x.isFinite = true := by
  cases x with
  | finite => rfl
  | infinite => cases h
  | nan => cases h

theorem dropZeroSign_of_ne (s : Bool) {m : Nat} (hm : Representable m) (h0 : m ≠ 0) :
    (finite s m hm).dropZeroSign = finite s m hm :=
  if_neg (by simpa [isZero] using h0)

theorem isShort_zero {places : Int} (hp : 0 ≤ places) : (zero false).IsShort places := by
  refine ⟨fun _ => rfl, ?_⟩
  rw [shortestDecimal_zero]
  exact hp

theorem isShort_dropZeroSign {places : Int} (hp : 0 ≤ places) {s : Bool} {m : Nat}
    {hm : Representable m} (h : m ≠ 0 → -(shortestDecimal s m).exponent ≤ places) :
    (finite s m hm).dropZeroSign.IsShort places := by
  by_cases h0 : m = 0
  · subst h0
    exact isShort_zero hp
  · rw [dropZeroSign_of_ne s hm h0]
    exact ⟨fun h' => absurd h' h0, h h0⟩

/-- **What is rounded for the display has few enough places.** -/
theorem isShort_of_roundForDisplay {places : Int} (hp : 0 ≤ places) {x v : Binary64}
    (h : x.roundForDisplay places = .ok v) : v.IsShort places := by
  match x with
  | nan => cases h
  | infinite _ => cases h
  | finite s m hm =>
    obtain ⟨hunits, hround⟩ := roundForDisplay_finite hp s hm
    rw [hround] at h
    cases h
    refine isShort_dropZeroSign hp fun h0 => ?_
    unfold displayUnits at h0 hunits ⊢
    by_cases hlt : places < -(shortestDecimal false m).exponent
    · rw [if_pos hlt] at h0 hunits ⊢
      -- the decimal that was rounded to has no more places, and reads back
      have hle := le_exponent_of_reads hunits s h0 (k := -places) rfl
      omega
    · rw [if_neg hlt, exponent_shortestDecimal]
      omega

theorem roundForDisplay_of_isShort {places : Int} {v : Binary64} (h : v.IsShort places) :
    v.roundForDisplay places = .ok v := by
  obtain ⟨s, m, hm, rfl⟩ := exists_of_isFinite h.isFinite
  obtain ⟨hz, hplaces⟩ := h
  have hdrop : (finite s m hm).dropZeroSign = finite s m hm := by
    by_cases h0 : m = 0
    · subst h0
      rw [hz rfl]
      rfl
    · exact dropZeroSign_of_ne s hm h0
  rw [roundForDisplay_of_le hm hplaces, hdrop]

/-- **Rounding for the display twice** is rounding once. -/
theorem roundForDisplay_idem {places : Int} (hp : 0 ≤ places) {x v : Binary64}
    (h : x.roundForDisplay places = .ok v) : v.roundForDisplay places = .ok v :=
  roundForDisplay_of_isShort (isShort_of_roundForDisplay hp h)

end Binary64

/-! ### The line of a result -/

theorem isShort_of_calculate (hp : 0 ≤ settings.displayDecimals) {line : String} {v : Binary64}
    (h : calculate settings line = .ok (.value v)) : v.IsShort settings.displayDecimals := by
  unfold calculate at h
  split at h
  · split at h
    · next shown hround =>
      cases h
      exact Binary64.isShort_of_roundForDisplay hp hround
    · cases h
  · split at h <;> cases h

theorem calculate_numeral (hp : 0 ≤ settings.displayDecimals) (n : Numeral) :
    ∃ outcome, calculate settings n.string = .ok outcome ∧
      Settles settings (some n.value) outcome :=
  calculate_of_tokens Numeral.ofText?_string hp
    (tokensOf_written none (.operand n) (written_operand n) n.toList_string)

theorem Binary64.IsShort.calculate_shown (hp : 0 ≤ settings.displayDecimals) {v : Binary64}
    (h : v.IsShort settings.displayDecimals) : calculate settings v.shown = .ok (.value v) := by
  have hself := roundForDisplay_of_isShort h
  have hfin := h.isFinite
  have hz : v ≠ zero true := by
    rintro rfl
    exact Bool.noConfusion (h.1 rfl)
  obtain ⟨outcome, hcalc, hs⟩ := calculate_behind hp hfin hz [] .nil (List.append_nil _).symm
  have hsettles : Settles settings (some v) outcome := hs
  rw [hcalc]
  cases hsettles with
  | overflow hinf => rw [hfin] at hinf; cases hinf
  | value _ hv =>
    rw [hself] at hv
    cases hv
    rfl

/-- **A shown result comes to itself.** -/
theorem calculate_shown_self (hp : 0 ≤ settings.displayDecimals) {line : String} {v : Binary64}
    (h : calculate settings line = .ok (.value v)) :
    calculate settings v.shown = .ok (.value v) :=
  (isShort_of_calculate hp h).calculate_shown hp

theorem calculate_shown_self_negative :
    0 ≤ Settings.standard.displayDecimals ∧
      calculate .standard "-2/3" = .ok (.value negativeTwoThirds) ∧
      calculate .standard negativeTwoThirds.shown = .ok (.value negativeTwoThirds) := by
  have hp : 0 ≤ Settings.standard.displayDecimals := by decide
  exact ⟨hp, calculate_negativeTwoThirds, calculate_shown_self hp calculate_negativeTwoThirds⟩

end PocketCalculator
