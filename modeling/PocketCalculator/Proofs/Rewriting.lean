import PocketCalculator.Proofs.Outcome
import PocketCalculator.Proofs.Reopening

/-! # An entry that was read is written and read again

A moment may be written in many ways, and an entry has one object. Whatever was written, an offset
that was read is zero or of a second or more (`keepsOffset_of_ofPoints`), so the object of the entry
tells of it. What is read from that object is the entry in whole seconds, and this entry has the
same object again (`reread_in_whole_seconds`). -/

namespace PocketCalculator

/-! ### Offsets that are read -/

/-- An offset of no whole second is read as zero. -/
theorem readZone?_eq_some {cs : List Char} {n : Int} (h : readZone? cs = some n) :
    n = 0 ∨ 1000000 ≤ n.natAbs := by
  unfold readZone? at h
  split at h
  · cases h
  · split at h
    · cases h
      exact .inl rfl
    · cases h
  · next sign rest _ =>
    split at h
    · cases h
    · next t _ =>
      split at h
      · simp only [Option.some.injEq] at h
        by_cases hseconds : (t.hour * 3600 + t.minute * 60 + t.second : Int) = 0
        · rw [if_pos hseconds] at h
          left
          split at h <;> omega
        · rw [if_neg hseconds] at h
          right
          split at h <;> omega
      · cases h

theorem readTime?_eq_some {cs : List Char} {time : ClockText} {offset : Option Int}
    (h : readTime? cs = some (time, offset)) : ∀ n ∈ offset, n = 0 ∨ 1000000 ≤ n.natAbs := by
  unfold readTime? at h
  split at h
  · cases h
  · split at h
    · cases h
      simp
    · cases h
  · obtain ⟨n, hzone, hpair⟩ := Option.map_eq_some_iff.mp h
    cases hpair
    intro m hm
    cases hm
    exact readZone?_eq_some hzone

theorem readFields?_eq_some {points : List CodePoint} {date : Nat × Nat × Nat} {time : ClockText}
    {offset : Option Int} (h : readFields? points = some (date, time, offset)) :
    ∀ n ∈ offset, n = 0 ∨ 1000000 ≤ n.natAbs := by
  unfold readFields? at h
  simp only [Option.bind_eq_bind, Option.bind_eq_some_iff] at h
  obtain ⟨cs, -, width, -, date', -, h⟩ := h
  split at h
  · cases h
    simp
  · simp only [Option.pure_def, Option.bind_eq_some_iff, Option.some.injEq, Prod.mk.injEq] at h
    obtain ⟨found, htime, -, rfl⟩ := h
    exact readTime?_eq_some htime

theorem Offset.microseconds_of_ofMicroseconds {n : Int} {o : Offset}
    (h : Offset.ofMicroseconds n = .ok o) : o.microseconds = n := by
  unfold ofMicroseconds at h
  split at h <;> cases h
  rfl

theorem offset_of_ofFields {date : Nat × Nat × Nat} {time : ClockText} {offset : Option Int}
    {t : Timestamp} (h : Timestamp.ofFields date time offset = .ok t) :
    ∀ o ∈ t.offset, o.microseconds ∈ offset := by
  unfold Timestamp.ofFields at h
  obtain ⟨found, hfound, h⟩ := exists_of_bind_eq_ok h
  obtain ⟨_, -, h⟩ := exists_of_bind_eq_ok h
  obtain ⟨_, -, h⟩ := exists_of_bind_eq_ok h
  cases h
  cases offset with
  | none =>
    cases hfound
    simp
  | some n =>
    rw [Option.mapM_some] at hfound
    obtain ⟨o, ho, rfl⟩ := exists_of_map_eq_ok hfound
    intro o' ho'
    cases ho'
    rw [Offset.microseconds_of_ofMicroseconds ho]
    rfl

/-- **Every offset that is read is told by its text,** whatever the text was that it was read
from. -/
theorem keepsOffset_of_ofPoints {points : List CodePoint} {t : Timestamp}
    (h : Timestamp.ofPoints points = .ok t) : t.KeepsOffset := by
  unfold Timestamp.ofPoints at h
  split at h
  · cases h
  · next date time offset hfields =>
    split at h
    · next hof =>
      cases h
      exact fun o ho => readFields?_eq_some hfields _ (offset_of_ofFields hof o ho)
    · cases h

/-! ### Written and read again -/

/-- The same entry in whole seconds. -/
def Entry.wholeSecond (e : Entry) : Entry := { e with timestamp := e.timestamp.wholeSecond }

theorem Entry.reread_of_keepsOffset {e : Entry} (h : e.timestamp.KeepsOffset) :
    e.reread = e.wholeSecond := by
  unfold reread wholeSecond Timestamp.reread
  rw [Timestamp.map_reread_of_keeps h]
  rfl

/-- **An entry that was read is kept by its object,** apart from fractions of a second: the entry
that is read from the object of `e` has the date, the hour, the minute and the second of `e`, its
offset, its line and its result. It is shown as `e` is, and it does not change any more. -/
theorem reread_in_whole_seconds {data : Json} {e : Entry} (h : Entry.ofJson data = .ok e) :
    Entry.ofJson e.toJson = .ok e.wholeSecond ∧ e.wholeSecond.toJson = e.toJson ∧
      e.wholeSecond.line = e.line ∧ Entry.ofJson e.wholeSecond.toJson = .ok e.wholeSecond := by
  have hkeeps : e.timestamp.KeepsOffset := by
    cases Entry.ofJson_eq_ok_iff.mp h with
    | object _ hmoment => exact keepsOffset_of_ofPoints hmoment
  have hread : Entry.ofJson e.toJson = .ok e.wholeSecond := by
    rw [Entry.ofJson_toJson, Entry.reread_of_keepsOffset hkeeps]
  exact ⟨hread, rfl, rfl, hread⟩

/-- The last moment but a fraction of the last week of a year, as far west as an offset goes. -/
def lastWeek : Timestamp where
  date := ⟨2021, 1, 3, by decide, by decide, by decide, by decide⟩
  time := ⟨23, 59, 59, 123456, by decide, by decide, by decide, by decide⟩
  offset := some ⟨-86399999999, by decide, by decide⟩

/-- An object that writes this moment as a day of a week, with a fraction that is cut off. -/
def lastWeekObject : Json :=
  .object [(Units.ofString "result", .null), (Units.ofString "expression", .array []),
    (Units.ofString "timestamp", .ofString "2020W537ᛇ235959,1234567-23:59:59.9999999")]

theorem tellsOf_lastWeekObject : lastWeekObject.TellsOf ⟨lastWeek, .array [], .null⟩ := by
  have hmoment : Timestamp.ofPoints
      (Units.ofString "2020W537ᛇ235959,1234567-23:59:59.9999999").points = .ok lastWeek :=
    eq_ok_of_toOption (by decide +kernel)
  exact .object rfl hmoment rfl rfl

theorem reread_in_whole_seconds_lastWeek : ∃ e : Entry,
    e = ⟨lastWeek, .array [], .null⟩ ∧ Entry.ofJson lastWeekObject = .ok e ∧
      Entry.ofJson e.toJson = .ok e.wholeSecond ∧ e.wholeSecond.toJson = e.toJson ∧
      e.wholeSecond.line = e.line ∧ Entry.ofJson e.wholeSecond.toJson = .ok e.wholeSecond := by
  have hread := Entry.ofJson_eq_ok_iff.mpr tellsOf_lastWeekObject
  exact ⟨_, rfl, hread, reread_in_whole_seconds hread⟩

end PocketCalculator
