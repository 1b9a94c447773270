import PocketCalculator.Guard
import PocketCalculator.Proofs.Layout
import PocketCalculator.Proofs.Outcome
import Mathlib.Data.List.Nodup

/-! # The characters that the guards report

The guards look for characters that are not expected in a line, and know nothing of its tokens. Yet
what they find is what the tokens leave out: each character of the line that no token takes up, once
and in the order of first appearance (`Lists`), points and blanks apart
(`unexpected_lists_dropped`).

A step of the search keeps what `Lists` says of the characters seen so far (`lists_noteUnexpected`).
That the tokens take up every digit and every symbol is read off the greedy layout of the line
(`Layout.exists_lexeme_of_mem`). -/

namespace PocketCalculator

/-! ### The search -/

/-- **A list of what has been seen:** the characters that have a property, each once, in the order
in which they first appeared. -/
structure Lists (P : Char → Prop) (seen found : List Char) : Prop where
  nodup : found.Nodup
  ordered : found.Pairwise fun a b => seen.idxOf a < seen.idxOf b
  mem_iff : ∀ c, c ∈ found ↔ c ∈ seen ∧ P c

namespace Lists

variable {P Q : Char → Prop} {seen found : List Char}

theorem nil : Lists P [] [] := ⟨.nil, .nil, by simp⟩

theorem congr (h : Lists P seen found) (hPQ : ∀ c ∈ seen, P c ↔ Q c) : Lists Q seen found :=
  { h with mem_iff := fun c => (h.mem_iff c).trans (and_congr_right (hPQ c)) }

theorem ordered_append (h : Lists P seen found) (rest : List Char) :
    found.Pairwise fun a b => (seen ++ rest).idxOf a < (seen ++ rest).idxOf b :=
  h.ordered.imp_of_mem fun ha hb hlt => by
    rwa [List.idxOf_append_of_mem ((h.mem_iff _).mp ha).1,
      List.idxOf_append_of_mem ((h.mem_iff _).mp hb).1]

theorem snoc_of_known {c : Char} (h : Lists P seen found) (hc : ¬ P c ∨ c ∈ found) :
    Lists P (seen ++ [c]) found where
  nodup := h.nodup
  ordered := h.ordered_append [c]
  mem_iff := fun d => by
    rw [h.mem_iff, List.mem_append, List.mem_singleton]
    refine and_congr_left fun hd => ⟨.inl, ?_⟩
    rintro (hd' | rfl)
    · exact hd'
    · exact ((h.mem_iff _).mp (hc.resolve_left (not_not_intro hd))).1

theorem snoc_of_new {c : Char} (h : Lists P seen found) (hc : P c) (hnew : c ∉ found) :
    Lists P (seen ++ [c]) (found ++ [c]) where
  nodup := h.nodup.append (List.nodup_singleton c) (List.disjoint_singleton.mpr hnew)
  ordered := by
    have hseen : c ∉ seen := fun hmem => hnew ((h.mem_iff c).mpr ⟨hmem, hc⟩)
    refine List.pairwise_append.mpr ⟨h.ordered_append [c], List.pairwise_singleton _ c, ?_⟩
    intro a ha b hb
    obtain rfl := List.mem_singleton.mp hb
    have ha' := ((h.mem_iff a).mp ha).1
    rw [List.idxOf_append_of_mem ha', List.idxOf_append_of_notMem hseen]
    exact Nat.lt_add_right _ (List.idxOf_lt_length_of_mem ha')
  mem_iff := fun d => by
    simp only [List.mem_append, List.mem_singleton, h.mem_iff, or_and_right]
    refine or_congr_right ⟨?_, And.left⟩
    rintro rfl
    exact ⟨rfl, hc⟩

end Lists

/-- **One step of the search** lists the characters seen so far, if it did before. -/
theorem lists_noteUnexpected {seen found : List Char}
    (h : Lists (· ∉ expectedCharacters) seen found) (c : Char) :
    Lists (· ∉ expectedCharacters) (seen ++ [c]) (noteUnexpected found c) := by
  unfold noteUnexpected
  split
  · next hknown => exact h.snoc_of_known (hknown.imp_left not_not_intro)
  · next hnew =>
    obtain ⟨hc, hfound⟩ := not_or.mp hnew
    exact h.snoc_of_new hc hfound

theorem lists_foldl : ∀ (cs : List Char) {seen found : List Char},
    Lists (· ∉ expectedCharacters) seen found →
      Lists (· ∉ expectedCharacters) (seen ++ cs) (cs.foldl noteUnexpected found)
  | [], seen, found, h => by rwa [List.append_nil]
  | c :: cs, seen, found, h => by
    have ih := lists_foldl cs (lists_noteUnexpected h c)
    rwa [List.append_assoc] at ih

theorem lists_unexpected (line : String) :
    Lists (· ∉ expectedCharacters) line.toList (unexpected line) :=
  lists_foldl line.toList .nil

theorem mem_expectedCharacters_iff {c : Char} : c ∈ expectedCharacters ↔
    (c.isDigit = true ∨ isSymbol c = true) ∨ c = '.' ∨ c = ' ' ∨ c = '\t' := by
  constructor
  · have hall : ∀ d ∈ expectedCharacters,
        (d.isDigit = true ∨ isSymbol d = true) ∨ d = '.' ∨ d = ' ' ∨ d = '\t' :=
      forall_of_all (by decide)
    exact hall c
  · have hdigits : ∀ d ∈ "0123456789".toList, d ∈ expectedCharacters := forall_of_all (by decide)
    rintro ((hdigit | hsymbol) | hrest)
    · exact hdigits c (Numeral.mem_digits_of_isDigit hdigit)
    · obtain ⟨op, rfl⟩ | rfl | rfl := isSymbol_cases hsymbol
      · cases op <;> decide
      · decide
      · decide
    · rcases hrest with rfl | rfl | rfl <;> decide

/-! ### The characters of tokens -/

theorem Lexeme.of_mem_text {l : Lexeme} {c : Char} (h : c ∈ l.text) :
    (c.isDigit = true ∨ isSymbol c = true) ∨ c = '.' := by
  cases l with
  | symbol d hd =>
    obtain rfl := List.mem_singleton.mp h
    exact .inl (.inr hd)
  | numeral n =>
    exact n.forall_mem_text (P := fun c => (c.isDigit = true ∨ isSymbol c = true) ∨ c = '.')
      (by decide) c h

/-- **Every digit and every symbol** of a greedy layout belongs to a lexeme. -/
theorem Layout.exists_lexeme_of_mem {c : Char} (hc : c.isDigit = true ∨ isSymbol c = true) :
    ∀ {d : Layout}, d.IsGreedy → c ∈ d.text → ∃ l ∈ d.lexemes, c ∈ l.text
  | last gap, hgap, hmem => by
    obtain ⟨hdigit, hsymbol⟩ := IsGap.forall_mem hgap c hmem
    simp [hdigit, hsymbol] at hc
  | lexeme gap l rest, ⟨hgap, _, hrest⟩, hmem => by
    rcases List.mem_append.mp hmem with hmem | hmem
    · obtain ⟨hdigit, hsymbol⟩ := hgap.forall_mem c hmem
      simp [hdigit, hsymbol] at hc
    · rcases List.mem_append.mp hmem with hmem | hmem
      · exact ⟨l, List.mem_cons_self, hmem⟩
      · obtain ⟨l', hl', hc'⟩ := exists_lexeme_of_mem hc hrest hmem
        exact ⟨l', List.mem_cons_of_mem l hl', hc'⟩

/-- The tokens that are taken from a line; there are none if the line is refused. -/
def takenTokens (line : String) : List Token :=
  match tokenize line with
  | .ok tokens => tokens
  | .error _ => []

theorem takenTokens_eq (line : String) : takenTokens line = tokensOf line := by
  unfold takenTokens tokenize
  split
  · next htokens =>
    split at htokens
    · cases htokens
    · cases htokens
      rfl
  · next htokens =>
    split at htokens
    · next hnone => exact hnone.symm
    · cases htokens

/-- **A character that is dropped:** no token has it. -/
def IsDropped (line : String) (c : Char) : Prop := ∀ t ∈ takenTokens line, c ∉ t.text.toList

/-- **What is dropped** of a line, points apart, is neither a digit nor a symbol. -/
theorem isDropped_iff {line : String} {c : Char} (hmem : c ∈ line.toList) (hpoint : c ≠ '.') :
    IsDropped line c ↔ ¬ (c.isDigit = true ∨ isSymbol c = true) := by
  obtain ⟨d, htext, hd⟩ := Layout.exists_isGreedy (withLeadingZero line.toList)
  have htokens : takenTokens line = d.lexemes.map Lexeme.token := by
    rw [takenTokens_eq, tokensOf_of_isGreedy hd htext]
  have hline : c ∈ d.text := by
    rw [htext, withLeadingZero_eq_ite]
    split
    · exact List.mem_cons_of_mem _ hmem
    · exact hmem
  unfold IsDropped
  simp only [htokens, List.forall_mem_map, Lexeme.token, String.toList_ofList]
  constructor
  · intro hdropped hc
    obtain ⟨l, hl, hcl⟩ := d.exists_lexeme_of_mem hc hd hline
    exact hdropped l hl hcl
  · exact fun hc l _ hcl => (Lexeme.of_mem_text hcl).elim hc hpoint

/-! ### What the guards tell -/

/-- **The guards report what the tokens leave out:** the characters of the line that are in no
token, points, spaces and tabs apart, each once, in the order of first appearance. If the line is
not too long they are all that the guards warn of, and there is no warning without them. -/
theorem unexpected_lists_dropped (line : String) :
    Lists (fun c => IsDropped line c ∧ c ≠ '.' ∧ c ≠ ' ' ∧ c ≠ '\t') line.toList
        (unexpected line) ∧
      ∀ settings : Settings, (line.length : Int) ≤ settings.maxExpressionLength →
        (guardNotes settings line).filter (·.severity = .warning) =
          if unexpected line = [] then [] else [⟨.warning, .guard,
        s!"Ignoring unrecognized characters {bracketed (unexpected line)} in '{leading 50 line}'"⟩]
    := by
  constructor
  · refine (lists_unexpected line).congr fun c hmem => ?_
    rw [mem_expectedCharacters_iff]
    by_cases hpoint : c = '.'
    · simp [hpoint]
    · rw [isDropped_iff hmem hpoint]
      simp [hpoint]
  · intro settings hlength
    have hnone : refusal? settings line = none := if_neg (Int.not_lt.mpr hlength)
    unfold guardNotes lengthNotes unexpectedNotes
    rw [hnone]
    cases unexpected line with
    | nil => rfl
    | cons c found => rfl

theorem unexpected_lists_dropped_letter :
    Lists (fun c => IsDropped "-٣+ 1.5a.٣" c ∧ c ≠ '.' ∧ c ≠ ' ' ∧ c ≠ '\t')
        "-٣+ 1.5a.٣".toList ['٣', 'a'] ∧
      ("-٣+ 1.5a.٣".length : Int) ≤ Settings.standard.maxExpressionLength ∧
      (guardNotes .standard "-٣+ 1.5a.٣").filter (·.severity = .warning) =
        [⟨.warning, .guard,
          "Ignoring unrecognized characters ['٣', 'a'] in '-٣+ 1.5a.٣'"⟩] := by
  have hfound : unexpected "-٣+ 1.5a.٣" = ['٣', 'a'] := by decide
  have hlength : ("-٣+ 1.5a.٣".length : Int) ≤ Settings.standard.maxExpressionLength := by decide
  obtain ⟨hlists, hnotes⟩ := unexpected_lists_dropped "-٣+ 1.5a.٣"
  have hnote := hnotes .standard hlength
  rw [hfound] at hlists hnote
  refine ⟨hlists, hlength, hnote.trans ?_⟩
  decide +kernel

end PocketCalculator
