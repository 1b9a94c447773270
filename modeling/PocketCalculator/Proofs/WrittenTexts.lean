import PocketCalculator.Json.Printer
import PocketCalculator.Json.Token
import Mathlib.Tactic.SplitIfs

/-! # Texts between quotes are read back

Between quotes a unit stands in one of three forms: behind a backslash as one letter, as the
character it is, or by its number in four hexadecimal digits (`escapedUnit_cases`). The scanner
takes each form for the unit again, and so comes to the closing quote with the units that were
written (`scanString_quoted`). -/

namespace PocketCalculator

/-! ### Four hexadecimal digits -/

theorem hexDigits_succ {w : Nat} (hw : 0 < w) (n : Nat) :
    hexDigits (w + 1) n = hexDigits w (n / 16) ++ [Nat.digitChar (n % 16)] := by
  unfold hexDigits
  simp only
  rcases Nat.lt_or_ge n 16 with h | h
  · have hlow : Nat.toDigits 16 (n / 16) = ['0'] := by
      rw [Nat.div_eq_of_lt h, Nat.toDigits_zero]
    obtain ⟨k, rfl⟩ := Nat.exists_eq_succ_of_ne_zero (Nat.ne_of_gt hw)
    rw [hlow, Nat.toDigits_of_lt_base h, Nat.mod_eq_of_lt h, List.append_cancel_right_eq]
    exact List.replicate_succ'
  · rw [Nat.toDigits_of_base_le (by decide) h, List.length_append, List.length_singleton,
      Nat.add_sub_add_right, List.append_assoc]

theorem hexDigits_one {n : Nat} (h : n < 16) : hexDigits 1 n = [Nat.digitChar n] := by
  simp [hexDigits, Nat.toDigits_of_lt_base h]

theorem hexDigits_four {n : Nat} (h : n < 65536) :
    hexDigits 4 n = [Nat.digitChar (n / 16 / 16 / 16), Nat.digitChar (n / 16 / 16 % 16),
      Nat.digitChar (n / 16 % 16), Nat.digitChar (n % 16)] := by
  rw [hexDigits_succ (by decide), hexDigits_succ (by decide), hexDigits_succ (by decide),
    hexDigits_one (by omega)]
  rfl

namespace Json

theorem hexValue?_digitChar {d : Nat} (h : d < 16) : hexValue? (Nat.digitChar d) = some d := by
  have hall : ∀ d < 16, hexValue? (Nat.digitChar d) = some d := by decide
  exact hall d h

theorem hexUnit?_digits (u : UInt16) :
    hexUnit? (Nat.digitChar (u.toNat / 16 / 16 / 16)) (Nat.digitChar (u.toNat / 16 / 16 % 16))
      (Nat.digitChar (u.toNat / 16 % 16)) (Nat.digitChar (u.toNat % 16)) = some u := by
  have hu := u.toNat_lt
  have hvalue : ((u.toNat / 16 / 16 / 16 * 16 + u.toNat / 16 / 16 % 16) * 16 +
      u.toNat / 16 % 16) * 16 + u.toNat % 16 = u.toNat := by omega
  simp only [hexUnit?, hexValue?_digitChar (show u.toNat / 16 / 16 / 16 < 16 by omega),
    hexValue?_digitChar (Nat.mod_lt _ (show 0 < 16 by decide)), Option.bind_eq_bind,
    Option.bind_some, Option.pure_def, hvalue]
  exact congrArg some UInt16.ofNat_toNat

/-! ### Units -/

/-- **The forms of a unit:** an escape of one letter, a printable character, an escape by
number. -/
theorem escapedUnit_cases (u : UInt16) :
    (∃ c, escapedUnit u = ['\\', c] ∧ shortEscape? c = some u ∧ c ≠ 'u') ∨
      (∃ c, escapedUnit u = [c] ∧ Units.ofChar c = [u] ∧ c ≠ '"' ∧ c ≠ '\\' ∧ 0x20 ≤ c.toNat) ∨
      escapedUnit u = '\\' :: 'u' :: hexDigits 4 u.toNat := by
  have hshort : ∀ c unit, u = unit → shortEscape? c = some unit → c ≠ 'u' →
      ∃ c', ['\\', c] = ['\\', c'] ∧ shortEscape? c' = some u ∧ c' ≠ 'u' := by
    rintro c unit rfl hc hne
    exact ⟨c, rfl, hc, hne⟩
  unfold escapedUnit
  split_ifs with hquote hslash hline hreturn htab hback hfeed hplain
  · exact Or.inl (hshort _ _ hquote rfl (by decide))
  · exact Or.inl (hshort _ _ hslash rfl (by decide))
  · exact Or.inl (hshort _ _ hline rfl (by decide))
  · exact Or.inl (hshort _ _ hreturn rfl (by decide))
  · exact Or.inl (hshort _ _ htab rfl (by decide))
  · exact Or.inl (hshort _ _ hback rfl (by decide))
  · exact Or.inl (hshort _ _ hfeed rfl (by decide))
  · have hlow : 0x20 ≤ u.toNat := UInt16.le_iff_toNat_le.mp hplain.1
    have hhigh : u.toNat < 0x7f := UInt16.lt_iff_toNat_lt.mp hplain.2
    have hall : ∀ n < 0x7f, (Char.ofNat n).toNat = n := by decide
    have hc := hall _ hhigh
    have hne : ∀ {unit : UInt16} {c : Char}, u ≠ unit → unit.toNat = c.toNat →
        Char.ofNat u.toNat ≠ c := by
      intro unit c hu hunit heq
      refine hu (UInt16.toNat_inj.mp ?_)
      rw [hunit, ← heq, hc]
    refine Or.inr (Or.inl ⟨_, rfl, ?_, hne hquote rfl, hne hslash rfl, by omega⟩)
    rw [Units.ofChar, hc, if_pos (by omega)]
    exact congrArg (· :: []) UInt16.ofNat_toNat
  · exact Or.inr (Or.inr rfl)

theorem scanString_escapedUnit (u : UInt16) (rest : List Char) :
    scanString (escapedUnit u ++ rest) =
      (scanString rest).map fun found => (u :: found.1, found.2) := by
  have hbind : ∀ units : Units,
      ((scanString rest).bind fun found => some (units ++ found.1, found.2)) =
        (scanString rest).map fun found => (units ++ found.1, found.2) := by
    intro units
    cases scanString rest <;> rfl
  rcases escapedUnit_cases u with ⟨c, hesc, hc, hne⟩ | ⟨c, hesc, hc, hquote, hslash, hlow⟩ | hesc
  · rw [hesc, List.cons_append, List.singleton_append, scanString]
    · simp only [hc, Option.bind_eq_bind, Option.bind_some, Option.pure_def]
      exact hbind [u]
    · grind
  · rw [hesc, List.singleton_append, scanString]
    · rw [if_neg (not_or.mpr ⟨hslash, by omega⟩), hc]
      exact hbind [u]
    · exact hquote
    · grind
    · grind
  · rw [hesc, hexDigits_four u.toNat_lt]
    simp only [List.cons_append, List.nil_append, scanString, hexUnit?_digits]
    exact hbind [u]

/-- **A text between quotes is read back,** whatever follows the closing quote. -/
theorem scanString_quoted (units : Units) (rest : List Char) :
    scanString (units.flatMap escapedUnit ++ '"' :: rest) = some (units, rest) := by
  induction units with
  | nil => simp [scanString]
  | cons u units ih =>
    rw [List.flatMap_cons, List.append_assoc, scanString_escapedUnit, ih]
    rfl

theorem scanScalar_quoted (units : Units) (rest : List Char) :
    scanScalar (quotedUnits units ++ rest) = some (.scalar (.string units), rest) := by
  rw [quotedUnits, List.cons_append, List.cons_append, List.append_assoc, List.singleton_append,
    scanScalar, scanString_quoted]
  rfl

end Json

end PocketCalculator
