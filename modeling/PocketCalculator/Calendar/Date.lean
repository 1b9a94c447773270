/-! # Calendar: dates, times of day and offsets

The Gregorian calendar from year 1 to year 9999. Dates, times of day and offsets from universal
time carry the proof that their fields are in range.

* `Date.ofFields`, `TimeOfDay.ofFields`, `Offset.ofMicroseconds`: the checks, in their order.
* `weekDate`: the date of a day of a numbered week. -/

namespace PocketCalculator

/-- Whether a year has a leap day. -/
def isLeapYear (year : Nat) : Bool :=
  year % 4 == 0 && (year % 100 != 0 || year % 400 == 0)

/-- The lengths of the months of a year. -/
def monthLengths (year : Nat) : List Nat :=
  [31, if isLeapYear year then 29 else 28, 31, 30, 31, 30, 31, 31, 30, 31, 30, 31]

/-- The length of a month, the months being numbered from 1. -/
def daysInMonth (year month : Nat) : Nat := (0 :: monthLengths year).getD month 0

/-- The number of days in a year. -/
def daysInYear (year : Nat) : Nat := if isLeapYear year then 366 else 365

/-- Why fields do not make up a date, a time of day or an offset. -/
inductive FieldError where
  | year (value : Nat)
  | month
  | day
  | hour
  | minute
  | second
  /-- The offset, in microseconds, is a day or more. -/
  | offset (microseconds : Int)
  deriving DecidableEq, Repr

/-! ### Dates -/

/-- Year, month and day are those of a date. -/
def IsDate (year month day : Nat) : Prop :=
  (1 ≤ year ∧ year ≤ 9999) ∧ (1 ≤ month ∧ month ≤ 12) ∧ 1 ≤ day ∧ day ≤ daysInMonth year month

/-- A date. -/
structure Date where
  year : Nat
  month : Nat
  day : Nat
  isDate : IsDate year month day
  deriving DecidableEq

/-- The date of a year, a month and a day, checked in this order. -/
def Date.ofFields (year month day : Nat) : Except FieldError Date :=
  if hy : 1 ≤ year ∧ year ≤ 9999 then
    if hm : 1 ≤ month ∧ month ≤ 12 then
      if hd : 1 ≤ day ∧ day ≤ daysInMonth year month then .ok ⟨year, month, day, hy, hm, hd⟩
      else .error .day
    else .error .month
  else .error (.year year)

/-! ### Weeks -/

/-- The weekday of the first of January, Monday being 0. -/
def firstWeekday (year : Nat) : Nat :=
  let y := year - 1
  (y * 365 + y / 4 - y / 100 + y / 400) % 7

/-- The number of weeks in a year: one more when it begins on a Thursday, or on a Wednesday and
has a leap day. -/
def weeksInYear (year : Nat) : Nat :=
  if firstWeekday year = 3 ∨ (firstWeekday year = 2 ∧ isLeapYear year) then 53 else 52

/-- The month and the day of the day of a year, the first of January being 0, among months of the
given lengths. -/
def monthDay : List Nat → Nat → Nat × Nat
  | [], n => (1, n + 1)
  | length :: lengths, n =>
    if n < length then (1, n + 1)
    else
      let (month, day) := monthDay lengths (n - length)
      (month + 1, day)

/-- The year, month and day of a day of a year, which may be in the year before or after. -/
def yearDay (year : Nat) (n : Int) : Nat × Nat × Nat :=
  if n < 0 then
    (year - 1, monthDay (monthLengths (year - 1)) (n + daysInYear (year - 1)).toNat)
  else if n < daysInYear year then (year, monthDay (monthLengths year) n.toNat)
  else (year + 1, monthDay (monthLengths (year + 1)) (n - daysInYear year).toNat)

/-- The day of the year on which its first week begins: the week of the first Thursday. -/
def firstWeekStart (year : Nat) : Int :=
  let w : Int := firstWeekday year
  if 3 < w then 7 - w else -w

/-- The year, month and day of a day of a week; nothing for a week or a day that the year does not
have. The weeks of year 0 lie before the first month. -/
def weekDate (year week day : Nat) : Option (Nat × Nat × Nat) :=
  if year = 0 then
    if 1 ≤ week ∧ week ≤ 52 ∧ 1 ≤ day ∧ day ≤ 7 then some (1, 0, 1) else none
  else if 1 ≤ week ∧ week ≤ weeksInYear year ∧ 1 ≤ day ∧ day ≤ 7 then
    some (yearDay year (firstWeekStart year + ((week - 1) * 7 + (day - 1) : Nat)))
  else none

/-! ### Times of day -/

/-- Hour, minute, second and microsecond are those of a time of day. -/
def IsTimeOfDay (hour minute second microsecond : Nat) : Prop :=
  hour < 24 ∧ minute < 60 ∧ second < 60 ∧ microsecond < 1000000

/-- A time of day. -/
structure TimeOfDay where
  hour : Nat
  minute : Nat
  second : Nat
  microsecond : Nat
  isTimeOfDay : IsTimeOfDay hour minute second microsecond
  deriving DecidableEq

namespace TimeOfDay

/-- The first moment of a day. -/
def midnight : TimeOfDay := ⟨0, 0, 0, 0, by decide, by decide, by decide, by decide⟩

/-- The time of day of an hour, a minute and a second, checked in this order; the microseconds
count within their second. -/
def ofFields (hour minute second microsecond : Nat) : Except FieldError TimeOfDay :=
  if hh : hour < 24 then
    if hm : minute < 60 then
      if hs : second < 60 then
        .ok ⟨hour, minute, second, microsecond % 1000000, hh, hm, hs,
          Nat.mod_lt _ (by decide)⟩
      else .error .second
    else .error .minute
  else .error .hour

/-- The same time without its microseconds. -/
def wholeSecond (t : TimeOfDay) : TimeOfDay :=
  ⟨t.hour, t.minute, t.second, 0, t.isTimeOfDay.1, t.isTimeOfDay.2.1, t.isTimeOfDay.2.2.1,
    by decide⟩

end TimeOfDay

/-! ### Offsets -/

/-- The microseconds of a day. -/
def microsecondsPerDay : Int := 86400000000

/-- An offset from universal time, of less than a day. -/
structure Offset where
  microseconds : Int
  lt_day : microseconds < microsecondsPerDay
  gt_day : -microsecondsPerDay < microseconds
  deriving DecidableEq

/-- The offset of a number of microseconds. -/
def Offset.ofMicroseconds (n : Int) : Except FieldError Offset :=
  if h : n < microsecondsPerDay ∧ -microsecondsPerDay < n then .ok ⟨n, h.1, h.2⟩
  else .error (.offset n)

end PocketCalculator
