/-! # Text: UTF-16 code units

A text that is exchanged in UTF-16 units may hold a surrogate that has no partner. `Units` is such
a text; `Units.points` pairs the surrogates and keeps a single one as `CodePoint.lone`.

* `Units.ofString`: the units of a text of characters.
* `Units.points`: the code points of a text of units.
* `Units.toText`: its characters, a single surrogate shown as the replacement character.
* `Units.points_ofChars`, `Units.toText_ofString`: characters come back from their units. -/

namespace PocketCalculator

/-- A text as a sequence of UTF-16 code units. -/
abbrev Units := List UInt16

/-- A character, or a surrogate without a partner. -/
inductive CodePoint where
  | char (c : Char)
  | lone (unit : UInt16)
  deriving DecidableEq

/-- Whether a unit is the first half of a pair. -/
def isHighSurrogate (u : UInt16) : Bool := 0xd800 ≤ u && u < 0xdc00

/-- Whether a unit is the second half of a pair. -/
def isLowSurrogate (u : UInt16) : Bool := 0xdc00 ≤ u && u < 0xe000

namespace Units

/-- The one or two units of a character. -/
def ofChar (c : Char) : Units :=
  if c.toNat < 0x10000 then [c.toNat.toUInt16]
  else
    let n := c.toNat - 0x10000
    [(0xd800 + n / 0x400).toUInt16, (0xdc00 + n % 0x400).toUInt16]

/-- The units of a list of characters. -/
def ofChars (cs : List Char) : Units := cs.flatMap ofChar

/-- The units of a text. -/
def ofString (text : String) : Units := ofChars text.toList

/-- The character of a pair of surrogates. -/
def pair (high low : UInt16) : Char :=
  Char.ofNat (0x10000 + (high.toNat - 0xd800) * 0x400 + (low.toNat - 0xdc00))

/-- The code point of a unit that is not half of a pair. -/
def single (u : UInt16) : CodePoint :=
  if isHighSurrogate u || isLowSurrogate u then .lone u else .char (Char.ofNat u.toNat)

/-- The code points of a text of units. -/
def points : Units → List CodePoint
  | [] => []
  | [u] => [single u]
  | u :: v :: rest =>
    if isHighSurrogate u && isLowSurrogate v then .char (pair u v) :: points rest
    else single u :: points (v :: rest)

/-- The character that shows a code point: a single surrogate has none of its own. -/
def shownPoint : CodePoint → Char
  | .char c => c
  | .lone _ => '\ufffd'

/-- The characters of a text of units. -/
def toChars (units : Units) : List Char := units.points.map shownPoint

/-- A text of units as a text of characters. -/
def toText (units : Units) : String := String.ofList units.toChars

end Units

/-- The units of a code point. -/
def CodePoint.units : CodePoint → Units
  | .char c => Units.ofChar c
  | .lone u => [u]

namespace Units

/-! ### Reading what was written -/

theorem toNat_char_lt (c : Char) : c.toNat < 0x110000 := by
  have h := c.valid
  have hc : c.toNat = c.val.toNat := rfl
  simp only [UInt32.isValidChar, Nat.isValidChar] at h
  omega

/-- A character of one unit is that unit, which is no surrogate. -/
theorem single_toUInt16 {c : Char} (h : c.toNat < 0x10000) :
    single c.toNat.toUInt16 = .char c ∧ isHighSurrogate c.toNat.toUInt16 = false := by
  have hc : c.toNat < 0xd800 ∨ 0xdfff < c.toNat := by
    have := c.valid
    have hc : c.toNat = c.val.toNat := rfl
    simp only [UInt32.isValidChar, Nat.isValidChar] at this
    omega
  have hn : c.toNat.toUInt16.toNat = c.toNat := by simp [Nat.toUInt16]; omega
  have hh : isHighSurrogate c.toNat.toUInt16 = false := by
    simp [isHighSurrogate, UInt16.le_iff_toNat_le, UInt16.lt_iff_toNat_lt, hn]
    omega
  have hl : isLowSurrogate c.toNat.toUInt16 = false := by
    simp [isLowSurrogate, UInt16.le_iff_toNat_le, UInt16.lt_iff_toNat_lt, hn]
    omega
  exact ⟨by simp [single, hh, hl, hn], hh⟩

/-- The two units of a character are a pair of surrogates, which stands for the character. -/
theorem pair_ofChar {c : Char} (h : 0x10000 ≤ c.toNat) :
    ∃ u v, ofChar c = [u, v] ∧ isHighSurrogate u ∧ isLowSurrogate v ∧ pair u v = c := by
  have hlt := toNat_char_lt c
  refine ⟨_, _, by rw [ofChar, if_neg (by omega)], ?_, ?_, ?_⟩
  all_goals
    simp only [isHighSurrogate, isLowSurrogate, pair, UInt16.le_iff_toNat_le,
      UInt16.lt_iff_toNat_lt, Nat.toUInt16, UInt16.toNat_ofNat', Bool.and_eq_true,
      decide_eq_true_eq]
  · refine ⟨?_, ?_⟩ <;> simp <;> omega
  · refine ⟨?_, ?_⟩ <;> simp <;> omega
  · refine (congrArg Char.ofNat ?_).trans (Char.ofNat_toNat c)
    simp
    omega

theorem points_ofChars (cs : List Char) : points (ofChars cs) = cs.map .char := by
  induction cs with
  | nil => rfl
  | cons c cs ih =>
    rw [ofChars, List.flatMap_cons, ← ofChars, List.map_cons]
    rcases Nat.lt_or_ge c.toNat 0x10000 with h | h
    · obtain ⟨hs, hh⟩ := single_toUInt16 h
      rw [ofChar, if_pos h, List.singleton_append]
      cases hcs : ofChars cs with
      | nil =>
        rw [hcs] at ih
        rw [points, hs, ← ih, points]
      | cons v rest =>
        rw [hcs] at ih
        rw [points, hh, hs, ih]
        simp
    · obtain ⟨u, v, hc, hu, hv, hp⟩ := pair_ofChar h
      rw [hc, List.cons_append, List.singleton_append, points, hu, hv, hp, ih]
      simp

/-- Writing in units loses nothing. -/
theorem toText_ofString (text : String) : toText (ofString text) = text := by
  have h (cs : List Char) : cs.map (shownPoint ∘ CodePoint.char) = cs := by
    simp [Function.comp_def, shownPoint]
  rw [toText, toChars, ofString, points_ofChars, List.map_map, h, String.ofList_toList]

end Units

end PocketCalculator
