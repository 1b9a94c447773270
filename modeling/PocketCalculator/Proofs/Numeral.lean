import PocketCalculator.Decimal.Reading
import PocketCalculator.Expression.Token

/-! # Numerals

A numeral is a row of digits with an optional point, and at least one digit on one side of it. Its
value is the double nearest to the decimal that it writes. The reader of numbers finds this value
(`ofText?_text`). The scanner takes a numeral as a whole (`numeralPrefix_text_append`), provided
that what follows does not prolong it (`EndsBefore`), and takes nothing but numerals
(`exists_numeral`). -/

namespace PocketCalculator

/-! ### The front of a text -/

theorem takeWhile_of_head {p : Char → Bool} {l : List Char} (h : ∀ c ∈ l.head?, p c = false) :
    l.takeWhile p = [] := by
  rcases l with _ | ⟨c, l⟩
  · rfl
  · simp [h c (by simp)]

theorem dropWhile_of_head {p : Char → Bool} {l : List Char} (h : ∀ c ∈ l.head?, p c = false) :
    l.dropWhile p = l := by
  rcases l with _ | ⟨c, l⟩
  · rfl
  · simp [h c (by simp)]

theorem takeWhile_digits {ds r : List Char} (hd : ∀ c ∈ ds, c.isDigit = true)
    (hr : ∀ c ∈ r.head?, c.isDigit = false) : (ds ++ r).takeWhile Char.isDigit = ds := by
  rw [List.takeWhile_append_of_pos hd, takeWhile_of_head hr, List.append_nil]

theorem dropWhile_digits {ds r : List Char} (hd : ∀ c ∈ ds, c.isDigit = true)
    (hr : ∀ c ∈ r.head?, c.isDigit = false) : (ds ++ r).dropWhile Char.isDigit = r := by
  rw [List.dropWhile_append_of_pos hd, dropWhile_of_head hr]

theorem forall_of_all {P : Char → Prop} [DecidablePred P] {cs : List Char}
    (h : (cs.all fun c => P c) = true) : ∀ c ∈ cs, P c := fun c hc =>
  of_decide_eq_true (List.all_eq_true.mp h c hc)

theorem isDigit_of_mem_nil : ∀ c ∈ ([] : List Char), c.isDigit = true := by simp

/-! ### Numerals -/

/-- A numeral: digits, a point if there is a fraction, and the digits of the fraction. -/
structure Numeral where
  whole : List Char
  /-- The digits behind the point, if there is a point. -/
  fraction : Option (List Char)
  whole_digits : ∀ c ∈ whole, c.isDigit = true
  fraction_digits : ∀ c ∈ fraction.getD [], c.isDigit = true
  has_digit : whole ≠ [] ∨ fraction.getD [] ≠ []

namespace Numeral

/-- The text of a numeral. -/
def text (n : Numeral) : List Char :=
  match n.fraction with
  | none => n.whole
  | some fraction => n.whole ++ '.' :: fraction

/-- The text of a numeral as a string. -/
def string (n : Numeral) : String := String.ofList n.text

/-- All digits of a numeral. -/
def digits (n : Numeral) : List Char := n.whole ++ n.fraction.getD []

/-- The decimal that a numeral writes. -/
def decimal (n : Numeral) : Decimal :=
  ⟨false, Nat.ofDigitChars 10 n.digits 0, -((n.fraction.getD []).length : Int)⟩

/-- **The value of a numeral:** the double nearest to its decimal. -/
def value (n : Numeral) : Binary64 := n.decimal.toBinary64

/-- The numeral of the last digit of a number. -/
def digit (k : Nat) : Numeral where
  whole := [Nat.digitChar (k % 10)]
  fraction := none
  whole_digits := by
    intro c hc
    rw [List.mem_singleton.mp hc, Nat.isDigit_digitChar]
    exact decide_eq_true (Nat.mod_lt k (by decide))
  fraction_digits := isDigit_of_mem_nil
  has_digit := Or.inl (List.cons_ne_nil _ _)

/-- The numeral `0`. -/
def zero : Numeral := digit 0

/-- What stands behind a numeral does not prolong it. -/
def EndsBefore (n : Numeral) (rest : List Char) : Prop :=
  ∀ c ∈ rest.head?, c.isDigit = false ∧ (n.fraction = none → c ≠ '.')

/-! ### The characters of a numeral -/

theorem mem_digits_of_isDigit {c : Char} (h : c.isDigit = true) : c ∈ "0123456789".toList := by
  have hlt : c.toNat < 58 := by
    simp only [Char.isDigit, Bool.and_eq_true, decide_eq_true_eq, UInt32.le_iff_toNat_le] at h
    exact Nat.lt_succ_of_le h.2
  have hall : ∀ k < 58, (Char.ofNat k).isDigit = true → Char.ofNat k ∈ "0123456789".toList := by
    decide
  have hc := hall c.toNat hlt
  rw [Char.ofNat_toNat] at hc
  exact hc h

theorem forall_mem_text {P : Char → Prop} [DecidablePred P] (n : Numeral)
    (h : (".0123456789".toList.all fun c => P c) = true) : ∀ c ∈ n.text, P c := by
  have hall := forall_of_all h
  have hd : ∀ c : Char, c.isDigit = true → P c := fun c hc =>
    hall c (List.mem_cons_of_mem _ (mem_digits_of_isDigit hc))
  have hf := n.fraction_digits
  intro c hc
  unfold text at hc
  split at hc
  · exact hd c (n.whole_digits c hc)
  · next f heq =>
    rw [heq] at hf
    rcases List.mem_append.mp hc with hc | hc
    · exact hd c (n.whole_digits c hc)
    · rcases List.mem_cons.mp hc with rfl | hc
      · exact hall '.' (by decide)
      · exact hd c (hf c hc)

@[simp] theorem toList_string (n : Numeral) : n.string.toList = n.text := String.toList_ofList

theorem text_ne_nil (n : Numeral) : n.text ≠ [] := by
  have h := n.has_digit
  unfold text
  split
  · next heq => rw [heq] at h; simpa using h
  · simp

theorem exists_mem_text {P : Char → Prop} [DecidablePred P] (n : Numeral)
    (h : (".0123456789".toList.all fun c => P c) = true) : ∃ c ∈ n.text, P c := by
  obtain ⟨c, hc⟩ := List.exists_mem_of_ne_nil _ n.text_ne_nil
  exact ⟨c, hc, n.forall_mem_text h c hc⟩

/-! ### A numeral is read as its value -/

theorem trimPadding_of_forall {cs : List Char} (h : ∀ c ∈ cs, isPadding c = false) :
    trimPadding cs = cs := by
  have hr : ∀ c ∈ cs.reverse.head?, isPadding c = false := fun c hc =>
    h c (List.mem_reverse.mp (List.mem_of_mem_head? hc))
  unfold trimPadding
  rw [dropWhile_of_head fun c hc => h c (List.mem_of_mem_head? hc), dropWhile_of_head hr,
    List.reverse_reverse]

theorem joinGroups_of_forall {cs : List Char} (h : ∀ c ∈ cs, c ≠ '_') :
    joinGroups cs = some cs := by
  fun_induction joinGroups cs with
  | case1 => rfl
  | case2 => exact absurd rfl (h '_' (by simp))
  | case3 => exact absurd rfl (h '_' (by simp))
  | case4 => exact absurd rfl (h '_' (by simp))
  | case5 c rest _ _ ih => rw [ih fun x hx => h x (List.mem_cons_of_mem _ hx)]; rfl

theorem splitSign_of_forall {cs : List Char} (h : ∀ c ∈ cs, c ≠ '-' ∧ c ≠ '+') :
    splitSign cs = (false, cs) := by
  unfold splitSign
  split
  · exact absurd rfl (h '-' (by simp)).1
  · exact absurd rfl (h '+' (by simp)).2
  · rfl

/-- The parts are not so long that the exponent would be cut. -/
theorem ofParts_eq (negative : Bool) (whole fraction : List Char) :
    Decimal.ofParts negative whole fraction 0 =
      ⟨negative, Nat.ofDigitChars 10 (whole ++ fraction) 0, -(fraction.length : Int)⟩ := by
  simp only [Decimal.ofParts, List.length_append, Decimal.mk.injEq, true_and]
  omega

theorem ofUnsigned?_text (n : Numeral) :
    Decimal.ofUnsigned? false n.text = some n.decimal := by
  have hw := n.whole_digits
  have hf := n.fraction_digits
  have hd := n.has_digit
  unfold Decimal.ofUnsigned? text decimal digits
  rcases heq : n.fraction with _ | f
  · rw [heq] at hd
    have ht := takeWhile_digits (r := []) hw (by simp)
    have hr := dropWhile_digits (r := []) hw (by simp)
    rw [List.append_nil] at ht hr
    simp only [ht, hr, Option.getD_none, List.append_nil]
    rw [if_neg (by simpa using hd)]
    simp [Decimal.readExponent?, ofParts_eq]
  · rw [heq] at hf hd
    have hp : ∀ c ∈ ('.' :: f).head?, c.isDigit = false := by simp
    have ht := takeWhile_digits (r := []) hf (by simp)
    have hr := dropWhile_digits (r := []) hf (by simp)
    rw [List.append_nil] at ht hr
    simp only [takeWhile_digits hw hp, dropWhile_digits hw hp, Option.getD_some] at *
    simp only [ht, hr]
    rw [if_neg fun h => hd.elim (· h.1) (· h.2)]
    simp [Decimal.readExponent?, ofParts_eq]

theorem ofPlainText?_text (n : Numeral) : Binary64.ofPlainText? n.text = some n.value := by
  have hn : 'n' ∉ n.text.map Char.toLower := by
    intro h
    obtain ⟨c, hc, hl⟩ := List.mem_map.mp h
    exact forall_mem_text (P := fun c => c.toLower ≠ 'n') n (by decide) c hc hl
  have hname : ∀ name : String, 'n' ∈ name.toList → n.text.map Char.toLower ≠ name.toList :=
    fun name hmem heq => hn (heq ▸ hmem)
  unfold Binary64.ofPlainText?
  rw [splitSign_of_forall (forall_mem_text n (by decide))]
  simp only
  rw [if_neg (by
      rintro (h | h)
      · exact hname "inf" (by decide) h
      · exact hname "infinity" (by decide) h),
    if_neg (hname "nan" (by decide)), ofUnsigned?_text]
  rfl

/-- **A numeral is read as its value.** -/
theorem ofText?_string (n : Numeral) : Binary64.ofText? n.string = some n.value := by
  have hpad := trimPadding_of_forall (forall_mem_text (P := fun c => isPadding c = false) n
    (by decide))
  have hascii : n.text.map asciiDigit = n.text := by
    rw [List.map_congr_left (forall_mem_text (P := fun c => asciiDigit c = id c) n (by decide)),
      List.map_id]
  have hjoin := joinGroups_of_forall (forall_mem_text (P := fun c => c ≠ '_') n (by decide))
  unfold Binary64.ofText?
  rw [toList_string, hpad, hascii, hjoin]
  exact ofPlainText?_text n

theorem value_congr {n n' : Numeral} (h : n.text = n'.text) : n.value = n'.value := by
  have hread := ofText?_string n
  rw [string, h, ← string, ofText?_string] at hread
  exact (Option.some.inj hread).symm

/-! ### A numeral is scanned as a whole -/

/-- **The scanner takes a numeral** that is not prolonged by what follows. -/
theorem numeralPrefix_text_append (n : Numeral) {rest : List Char} (h : n.EndsBefore rest) :
    numeralPrefix (n.text ++ rest) = n.text := by
  have hw := n.whole_digits
  have hf := n.fraction_digits
  have hd := n.has_digit
  have hr : ∀ c ∈ rest.head?, c.isDigit = false := fun c hc => (h c hc).1
  unfold numeralPrefix text
  rcases heq : n.fraction with _ | f
  · simp only [takeWhile_digits hw hr, dropWhile_digits hw hr]
    split
    · exact absurd rfl ((h '.' (by simp)).2 heq)
    · rfl
  · rw [heq] at hf hd
    have hp : ∀ c ∈ ('.' :: (f ++ rest)).head?, c.isDigit = false := by simp
    have hf' : ∀ c ∈ f, c.isDigit = true := hf
    simp only [List.append_assoc, List.cons_append, takeWhile_digits hw hp,
      dropWhile_digits hw hp, takeWhile_digits hf' hr]
    exact if_neg fun hn => hd.elim (· hn.1) (· hn.2)

/-- **The scanner takes nothing but numerals.** -/
theorem exists_numeral {cs : List Char} (h : numeralPrefix cs ≠ []) :
    ∃ n : Numeral, numeralPrefix cs = n.text := by
  have hdigits : ∀ l : List Char, ∀ c ∈ l.takeWhile Char.isDigit, c.isDigit = true := fun l =>
    List.all_eq_true.mp List.all_takeWhile
  unfold numeralPrefix at h ⊢
  split at h
  · next rest heq =>
    simp only at h ⊢
    split at h
    · exact absurd rfl h
    · next hne =>
      rw [if_neg hne]
      exact ⟨⟨cs.takeWhile Char.isDigit, some (rest.takeWhile Char.isDigit), hdigits cs,
        hdigits rest, Decidable.not_and_iff_not_or_not.mp hne⟩, rfl⟩
  · exact ⟨⟨cs.takeWhile Char.isDigit, none, hdigits cs, by simp, Or.inl h⟩, rfl⟩

end Numeral

end PocketCalculator
