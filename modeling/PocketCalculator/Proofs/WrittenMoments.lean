import PocketCalculator.Calendar.Reading
import PocketCalculator.Proofs.ReadBack
import Mathlib.Tactic.SplitIfs

/-! # Timestamps are read back

The standard text of a timestamp is cut to whole seconds. The reader takes date, time and offset
from it as they are written, except that an offset without a whole second counts as none
(`Offset.reread`). So the timestamp that is read is the one that was written without its
microseconds, and without an offset of less than a second (`ofPoints_secondsText`). -/

namespace PocketCalculator

/-! ### What the text tells -/

/-- The offset of universal time. -/
def Offset.universal : Offset := ⟨0, by decide, by decide⟩

/-- **An offset as it is read again:** without a whole second it counts as universal time. -/
def Offset.reread (o : Offset) : Offset :=
  if o.microseconds.natAbs < 1000000 then universal else o

/-- **A timestamp as it is read again:** in whole seconds, with the offset as it is read. -/
def Timestamp.reread (t : Timestamp) : Timestamp :=
  { t.wholeSecond with offset := t.offset.map Offset.reread }

/-! ### Fields of a fixed width -/

section Field
variable {w n : Nat} (hw : 0 < w) (hn : n < tenTo w)
include hw hn

theorem length_padded : (Timestamp.padded w n).length = w := by
  have hlen := (Nat.length_toDigits_le_iff (b := 10) (n := n) (by decide) hw).mpr hn
  simp only [Timestamp.padded, List.length_append, List.length_replicate]
  omega

theorem takeDigits?_padded (rest : List Char) :
    takeDigits? w (Timestamp.padded w n ++ rest) = some (n, rest) := by
  have hlen := length_padded hw hn
  have hdigit : (Timestamp.padded w n).all Char.isDigit = true :=
    List.all_eq_true.mpr (isDigit_padded _ n)
  have hvalue : Nat.ofDigitChars 10 (Timestamp.padded w n) 0 = n := ofDigitChars_padded _ n
  unfold takeDigits?
  simp only [List.take_left' hlen, List.drop_left' hlen, hlen, hdigit, hvalue, and_self, if_true]

theorem exists_padded : ∃ c behind, Timestamp.padded w n = c :: behind ∧ c.isDigit = true := by
  have hlen := length_padded hw hn
  have hdigit : ∀ c ∈ Timestamp.padded w n, c.isDigit = true := isDigit_padded _ n
  cases hcs : Timestamp.padded w n with
  | nil =>
    rw [hcs] at hlen
    exact absurd hlen.symm (Nat.ne_of_gt hw)
  | cons c behind => exact ⟨c, behind, rfl, hdigit c (by rw [hcs]; simp)⟩

end Field

theorem takeDigits?_two {n : Nat} (hn : n < 100) (rest : List Char) :
    takeDigits? 2 (Timestamp.padded 2 n ++ rest) = some (n, rest) :=
  takeDigits?_padded (by decide) hn rest

/-! ### The date -/

theorem Date.bounds (d : Date) : d.year < 10000 ∧ d.month < 100 ∧ d.day < 100 := by
  obtain ⟨⟨-, hyear⟩, ⟨-, hmonth⟩, -, hday⟩ := d.isDate
  have hlengths : ∀ month < 13, daysInMonth d.year month ≤ 31 := by
    unfold daysInMonth monthLengths
    cases isLeapYear d.year <;> decide
  have := hlengths d.month (by omega)
  omega

theorem readDate?_dateText (d : Date) :
    readDate? (Timestamp.dateText d) = some (d.year, d.month, d.day) := by
  obtain ⟨hyear, hmonth, hday⟩ := d.bounds
  obtain ⟨c, behind, hc, hdigit⟩ := exists_padded (w := 2) (by decide) hmonth
  have hweek : ∀ rest : List Char, (Timestamp.padded 2 d.month ++ rest).head? ≠ some 'W' := by
    intro rest heq
    rw [hc, List.cons_append, List.head?_cons, Option.some.injEq] at heq
    rw [heq] at hdigit
    exact absurd hdigit (by decide)
  have hfour := takeDigits?_padded (w := 4) (by decide) hyear
    ('-' :: (Timestamp.padded 2 d.month ++ '-' :: Timestamp.padded 2 d.day))
  have hlast := takeDigits?_two hday []
  rw [List.append_nil] at hlast
  unfold readDate? Timestamp.dateText
  simp only [List.append_assoc, List.cons_append, hfour, Option.bind_eq_bind, Option.bind_some,
    List.head?_cons, decide_true, if_true, List.tail_cons, if_neg (hweek _), takeDigits?_two hmonth,
    skipHyphen?, hlast, Option.pure_def]

theorem length_dateText (d : Date) : (Timestamp.dateText d).length = 10 := by
  obtain ⟨hyear, hmonth, hday⟩ := d.bounds
  have hy : (Timestamp.padded 4 d.year).length = 4 := length_padded (by decide) hyear
  have hm : (Timestamp.padded 2 d.month).length = 2 := length_padded (by decide) hmonth
  have hd : (Timestamp.padded 2 d.day).length = 2 := length_padded (by decide) hday
  simp only [Timestamp.dateText, List.length_append, List.length_cons, hy, hm, hd]

theorem dateWidth_dateText (d : Date) (rest : List Char) :
    dateWidth (Timestamp.dateText d ++ rest) = some 10 := by
  obtain ⟨hyear, hmonth, hday⟩ := d.bounds
  obtain ⟨c, behind, hc, hdigit⟩ := exists_padded (w := 2) (by decide) hmonth
  have hlong : (Timestamp.dateText d ++ rest).length ≠ 7 := by
    rw [List.length_append, length_dateText]
    omega
  have hyearLen : (Timestamp.padded 4 d.year).length = 4 := length_padded (by decide) hyear
  have hhyphen : (Timestamp.dateText d ++ rest)[4]? = some '-' := by
    simp [Timestamp.dateText, hyearLen]
  have hmonthHead : (Timestamp.dateText d ++ rest)[5]? = some c := by
    simp [Timestamp.dateText, List.getElem?_append, hyearLen, hc]
  have hweek : c ≠ 'W' := by
    rintro rfl
    exact absurd hdigit (by decide)
  unfold dateWidth
  rw [if_neg hlong, if_pos hhyphen, hmonthHead, if_neg (by simpa using hweek)]

/-! ### The time -/

theorem fieldEnd?_colon (n : Nat) (rest : List Char) :
    fieldEnd? true (':' :: (Timestamp.padded 2 n ++ rest)) =
      some (.next (Timestamp.padded 2 n ++ rest)) := by
  have hne : Timestamp.padded 2 n ++ rest ≠ [] := by
    intro hnil
    exact Nat.toDigits_ne_nil (List.append_eq_nil_iff.mp (List.append_eq_nil_iff.mp hnil).1).2
  rw [fieldEnd?, if_neg fun h => hne h.1, if_pos ⟨rfl, rfl⟩]

theorem fieldEnd?_nil (colons : Bool) : fieldEnd? colons [] = some (.stop true) := rfl

theorem readFraction?_padded {n : Nat} (hn : n < 1000000) :
    readFraction? (Timestamp.padded 6 n) = some (n, true) := by
  have hlen : (Timestamp.padded 6 n).length = 6 := length_padded (by decide) hn
  have hdigits := takeDigits?_padded (w := 6) (by decide) hn []
  rw [List.append_nil] at hdigits
  unfold readFraction?
  simp only [hlen, Nat.min_self, hdigits, List.dropWhile_nil, List.head?_nil, true_or, decide_true,
    Nat.sub_self]
  rw [show Nat.pow 10 0 = 1 from rfl, Nat.mul_one]

section Clock
variable {hour minute : Nat} (hh : hour < 100) (hm : minute < 100)
include hh hm

theorem readClock?_minuteText :
    readClock? (Timestamp.minuteText hour minute) = some ⟨hour, minute, 0, 0, true⟩ := by
  have hlast := takeDigits?_two hm []
  have hcolon := fieldEnd?_colon minute []
  rw [List.append_nil] at hlast hcolon
  unfold readClock? Timestamp.minuteText
  simp only [takeDigits?_two hh, Option.bind_eq_bind, Option.bind_some, List.head?_cons,
    decide_true, hcolon, hlast, fieldEnd?_nil, Option.pure_def]

theorem readClock?_secondText {second : Nat} (hs : second < 100) :
    readClock? (Timestamp.secondText hour minute second) =
      some ⟨hour, minute, second, 0, true⟩ := by
  have hlast := takeDigits?_two hs []
  have hcolon := fieldEnd?_colon second []
  rw [List.append_nil] at hlast hcolon
  unfold readClock? Timestamp.secondText Timestamp.minuteText
  simp only [List.append_assoc, List.cons_append, takeDigits?_two hh, Option.bind_eq_bind,
    Option.bind_some, List.head?_cons, decide_true, fieldEnd?_colon minute, takeDigits?_two hm,
    hcolon, hlast, fieldEnd?_nil, Option.pure_def]

theorem readClock?_fraction {second microsecond : Nat} (hs : second < 100)
    (hu : microsecond < 1000000) :
    readClock? (Timestamp.secondText hour minute second ++
        '.' :: Timestamp.padded 6 microsecond) =
      some ⟨hour, minute, second, microsecond, true⟩ := by
  have hne : Timestamp.padded 6 microsecond ≠ [] := by
    intro hnil
    exact Nat.toDigits_ne_nil (List.append_eq_nil_iff.mp hnil).2
  have hpoint : fieldEnd? true ('.' :: Timestamp.padded 6 microsecond) =
      some (.fraction (Timestamp.padded 6 microsecond)) := by
    rw [fieldEnd?, if_neg fun h => hne h.1]
    rfl
  unfold readClock? Timestamp.secondText Timestamp.minuteText
  simp only [List.append_assoc, List.cons_append, takeDigits?_two hh, Option.bind_eq_bind,
    Option.bind_some, List.head?_cons, decide_true, fieldEnd?_colon minute, fieldEnd?_colon second,
    takeDigits?_two hm, takeDigits?_two hs, hpoint, readFraction?_padded hu, Option.pure_def]

end Clock

/-! ### The zone -/

/-- A sign and a time are read as the offset that they make up. -/
theorem readZone?_of_clock {o : Offset} {rest : List Char} {hour minute second microsecond : Nat}
    (hclock : readClock? rest = some ⟨hour, minute, second, microsecond, true⟩)
    (hseconds : hour * 3600 + minute * 60 + second = o.microseconds.natAbs / 1000000)
    (hmicroseconds : microsecond = o.microseconds.natAbs % 1000000) :
    readZone? ((if o.microseconds < 0 then '-' else '+') :: rest) =
      some o.reread.microseconds := by
  have hsum : (hour : Int) * 3600 + minute * 60 + second =
      (o.microseconds.natAbs / 1000000 : Nat) := by omega
  have hvalue : o.reread.microseconds =
      if o.microseconds.natAbs < 1000000 then 0 else o.microseconds := by
    unfold Offset.reread
    split_ifs <;> rfl
  by_cases hsign : o.microseconds < 0
  · rw [if_pos hsign, readZone?, hclock, hvalue]
    · simp only [if_true, hsum, hmicroseconds]
      split_ifs <;> simp only [Option.some.injEq] <;> omega
    · simp
  · rw [if_neg hsign, readZone?, hclock, hvalue]
    · simp only [if_true, hsum, hmicroseconds, show ('+' = '-') = False by decide, if_false]
      split_ifs <;> simp only [Option.some.injEq] <;> omega
    · simp

theorem readZone?_offsetText (o : Offset) :
    readZone? (Timestamp.offsetText o) = some o.reread.microseconds := by
  have hlt := o.lt_day
  have hgt := o.gt_day
  unfold microsecondsPerDay at hlt hgt
  have hhour : o.microseconds.natAbs / 1000000 / 3600 < 100 := by omega
  have hminute : o.microseconds.natAbs / 1000000 / 60 % 60 < 100 := by omega
  have hsecond : o.microseconds.natAbs / 1000000 % 60 < 100 := by omega
  have hmicro : o.microseconds.natAbs % 1000000 < 1000000 := Nat.mod_lt _ (by decide)
  unfold Timestamp.offsetText
  simp only [List.cons_append]
  by_cases hus : o.microseconds.natAbs % 1000000 = 0
  · simp only [ne_eq, hus, not_true_eq_false, if_false]
    by_cases hs : o.microseconds.natAbs / 1000000 % 60 = 0
    · simp only [hs, not_true_eq_false, if_false, List.append_nil]
      exact readZone?_of_clock (readClock?_minuteText hhour hminute) (by omega) hus.symm
    · simp only [hs, not_false_eq_true, if_true]
      exact readZone?_of_clock (readClock?_secondText hhour hminute hsecond) (by omega) hus.symm
  · have hclock := readClock?_fraction hhour hminute hsecond hmicro
    rw [Timestamp.secondText, List.append_assoc] at hclock
    rw [if_pos (c := o.microseconds.natAbs % 1000000 ≠ 0) hus]
    exact readZone?_of_clock hclock (by omega) rfl

/-! ### The whole -/

theorem not_beginsZone_of_isDigit {c : Char} (h : c.isDigit = true) : beginsZone c = false := by
  have hall : ∀ d ∈ "0123456789".toList, beginsZone d = false :=
    forall_of_all (by decide)
  exact hall c (Numeral.mem_digits_of_isDigit h)

theorem not_beginsZone_secondText (hour minute second : Nat) :
    ∀ c ∈ Timestamp.secondText hour minute second, (!beginsZone c) = true := by
  have hpadded : ∀ n, ∀ c ∈ Timestamp.padded 2 n, (!beginsZone c) = true := by
    intro n c hc
    rw [not_beginsZone_of_isDigit (isDigit_padded _ n c hc)]
    rfl
  intro c hc
  simp only [Timestamp.secondText, Timestamp.minuteText, List.append_assoc, List.cons_append,
    List.mem_append, List.mem_cons] at hc
  rcases hc with hc | rfl | hc | rfl | hc
  · exact hpadded hour c hc
  · decide
  · exact hpadded minute c hc
  · decide
  · exact hpadded second c hc

theorem head?_zoneText (t : Timestamp) : ∀ c ∈ t.zoneText.head?, (!beginsZone c) = false := by
  unfold Timestamp.zoneText
  cases t.offset with
  | none => simp
  | some o =>
    intro c hc
    simp only [Timestamp.offsetText, List.cons_append, List.head?_cons, Option.mem_def,
      Option.some.injEq] at hc
    rw [← hc]
    split_ifs <;> rfl

/-- A time is read up to its zone, and the zone as an offset. -/
theorem readTime?_text (t : Timestamp) :
    readTime? (Timestamp.secondText t.time.hour t.time.minute t.time.second ++ t.zoneText) =
      some (⟨t.time.hour, t.time.minute, t.time.second, 0, true⟩,
        t.offset.map fun o => o.reread.microseconds) := by
  obtain ⟨hhour, hminute, hsecond, -⟩ := t.time.isTimeOfDay
  have hclock := readClock?_secondText (Nat.lt_trans hhour (by decide : 24 < 100))
    (Nat.lt_trans hminute (by decide : 60 < 100)) (Nat.lt_trans hsecond (by decide : 60 < 100))
  have htime := not_beginsZone_secondText t.time.hour t.time.minute t.time.second
  have hzone := head?_zoneText t
  unfold readTime?
  rw [List.takeWhile_append_of_pos htime, takeWhile_of_head hzone, List.append_nil,
    List.dropWhile_append_of_pos htime, dropWhile_of_head hzone, hclock]
  unfold Timestamp.zoneText
  cases t.offset with
  | none => rfl
  | some o =>
    have hread := readZone?_offsetText o
    have hcons : ∃ c behind, Timestamp.offsetText o = c :: behind := ⟨_, _, rfl⟩
    obtain ⟨c, behind, hcons⟩ := hcons
    simp only [hcons] at hread ⊢
    simp only [hread, Option.map_some]

theorem mapM_zipIdx_chars {f : CodePoint × Nat → Option Char}
    (hf : ∀ c i, f (.char c, i) = some c) (cs : List Char) (first : Nat) :
    ((cs.map CodePoint.char).zipIdx first).mapM f = some cs := by
  induction cs generalizing first with
  | nil => rfl
  | cons c cs ih =>
    rw [List.map_cons, List.zipIdx_cons, List.mapM_cons, ih, hf]
    rfl

/-- Characters are no surrogates: every one of them counts as it is. -/
theorem separated?_chars (cs : List Char) : separated? (cs.map CodePoint.char) = some cs :=
  mapM_zipIdx_chars (fun _ _ => rfl) cs 0

theorem readFields?_secondsText (t : Timestamp) :
    readFields? (t.secondsText.map .char) =
      some ((t.date.year, t.date.month, t.date.day),
        ⟨t.time.hour, t.time.minute, t.time.second, 0, true⟩,
        t.offset.map fun o => o.reread.microseconds) := by
  have hlen := length_dateText t.date
  have htext : t.secondsText = Timestamp.dateText t.date ++
      'T' :: (Timestamp.secondText t.time.hour t.time.minute t.time.second ++ t.zoneText) := by
    simp [Timestamp.secondsText]
  unfold readFields?
  rw [separated?_chars, htext]
  simp only [Option.bind_eq_bind, Option.bind_some, dateWidth_dateText, List.take_left' hlen,
    List.drop_left' hlen, readDate?_dateText, readTime?_text, Option.pure_def]

theorem Offset.ofMicroseconds_self (o : Offset) : Offset.ofMicroseconds o.microseconds = .ok o :=
  dif_pos ⟨o.lt_day, o.gt_day⟩

theorem Date.ofFields_self (d : Date) : Date.ofFields d.year d.month d.day = .ok d := by
  obtain ⟨hyear, hmonth, hday⟩ := d.isDate
  rw [Date.ofFields, dif_pos hyear, dif_pos hmonth, dif_pos hday]

theorem TimeOfDay.ofFields_wholeSecond (t : TimeOfDay) :
    TimeOfDay.ofFields t.hour t.minute t.second 0 = .ok t.wholeSecond := by
  obtain ⟨hhour, hminute, hsecond, -⟩ := t.isTimeOfDay
  rw [TimeOfDay.ofFields, dif_pos hhour, dif_pos hminute, dif_pos hsecond]
  rfl

/-- **The standard text of a timestamp is read back,** as far as it tells of the timestamp. -/
theorem ofPoints_secondsText (t : Timestamp) :
    Timestamp.ofPoints (t.secondsText.map .char) = .ok t.reread := by
  have hoffset : (t.offset.map fun o => o.reread.microseconds).mapM Offset.ofMicroseconds =
      .ok (t.offset.map Offset.reread) := by
    cases t.offset with
    | none => rfl
    | some o =>
      simp only [Option.map_some, Option.mapM_some, Offset.ofMicroseconds_self]
      rfl
  have hfields : Timestamp.ofFields (t.date.year, t.date.month, t.date.day)
      ⟨t.time.hour, t.time.minute, t.time.second, 0, true⟩
      (t.offset.map fun o => o.reread.microseconds) = .ok t.reread := by
    unfold Timestamp.ofFields
    rw [hoffset]
    simp only [Date.ofFields_self, TimeOfDay.ofFields_wholeSecond]
    rfl
  unfold Timestamp.ofPoints
  rw [readFields?_secondsText]
  simp only [hfields]

end PocketCalculator
