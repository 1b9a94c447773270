import PocketCalculator.Calendar.Date
import PocketCalculator.Text.Quoted

/-! # Calendar: timestamps and their text

A timestamp is a date, a time of day and, if known, an offset from universal time. Its text in the
standard form has the letter `T` between date and time and the offset behind. -/

namespace PocketCalculator

/-- A moment as a clock and a calendar show it. -/
structure Timestamp where
  date : Date
  time : TimeOfDay
  offset : Option Offset
  deriving DecidableEq

namespace Timestamp

/-- A number with zeros in front up to a width. -/
def padded (width n : Nat) : List Char :=
  let digits := Nat.toDigits 10 n
  List.replicate (width - digits.length) '0' ++ digits

/-- Year, month and day. -/
def dateText (d : Date) : List Char :=
  padded 4 d.year ++ '-' :: padded 2 d.month ++ '-' :: padded 2 d.day

/-- Hours and minutes. -/
def minuteText (hour minute : Nat) : List Char := padded 2 hour ++ ':' :: padded 2 minute

/-- Hours, minutes and seconds. -/
def secondText (hour minute second : Nat) : List Char :=
  minuteText hour minute ++ ':' :: padded 2 second

/-- An offset: a sign, hours and minutes, and seconds and microseconds as far as there are any. -/
def offsetText (o : Offset) : List Char :=
  let n := o.microseconds.natAbs
  let microseconds := n % 1000000
  let seconds := n / 1000000
  let sign := if o.microseconds < 0 then '-' else '+'
  let behind :=
    if microseconds ≠ 0 then ':' :: padded 2 (seconds % 60) ++ '.' :: padded 6 microseconds
    else if seconds % 60 ≠ 0 then ':' :: padded 2 (seconds % 60)
    else []
  sign :: minuteText (seconds / 3600) (seconds / 60 % 60) ++ behind

/-- The offset behind a text, if there is one. -/
def zoneText (t : Timestamp) : List Char :=
  match t.offset with
  | some o => offsetText o
  | none => []

/-- The standard text, cut to whole seconds. -/
def secondsText (t : Timestamp) : List Char :=
  dateText t.date ++ 'T' :: secondText t.time.hour t.time.minute t.time.second ++ t.zoneText

/-- The standard text, with microseconds unless there are none. -/
def text (t : Timestamp) : String :=
  let behind := if t.time.microsecond = 0 then [] else '.' :: padded 6 t.time.microsecond
  String.ofList (dateText t.date ++ 'T' ::
    secondText t.time.hour t.time.minute t.time.second ++ behind ++ t.zoneText)

/-- Date and time to the minute, for a line of a list; the year is not padded. -/
def lineText (t : Timestamp) : List Char :=
  Nat.toDigits 10 t.date.year ++ '-' :: padded 2 t.date.month ++ '-' :: padded 2 t.date.day ++
    ' ' :: minuteText t.time.hour t.time.minute

/-- The time of day to the second. -/
def clockText (t : Timestamp) : String :=
  String.ofList (secondText t.time.hour t.time.minute t.time.second)

/-- The same moment without its microseconds. -/
def wholeSecond (t : Timestamp) : Timestamp := { t with time := t.time.wholeSecond }

end Timestamp

/-! ### Faulty timestamps -/

/-- Why a text is not a timestamp. -/
inductive TimestampError where
  /-- The text has none of the forms of a timestamp. -/
  | malformed (text : List CodePoint)
  /-- A field is out of its range. -/
  | field (cause : FieldError)
  deriving DecidableEq

/-- A span of time by its days, seconds and microseconds other than zero. -/
def spanText (microseconds : Int) : String :=
  let days := microseconds.fdiv microsecondsPerDay
  let inDay := microseconds.fmod microsecondsPerDay
  let parts : List (String × Int) :=
    [("days", days), ("seconds", inDay / 1000000), ("microseconds", inDay % 1000000)]
  let shown := (parts.filter (·.2 ≠ 0)).map fun part => s!"{part.1}={part.2}"
  "datetime.timedelta(" ++ (if shown = [] then "0" else ", ".intercalate shown) ++ ")"

/-- The wording of a field out of range. -/
def FieldError.message : FieldError → String
  | year value => s!"year {value} is out of range"
  | month => "month must be in 1..12"
  | day => "day is out of range for month"
  | hour => "hour must be in 0..23"
  | minute => "minute must be in 0..59"
  | second => "second must be in 0..59"
  | offset microseconds =>
    "offset must be a timedelta strictly between -timedelta(hours=24) and " ++
      s!"timedelta(hours=24), not {spanText microseconds}."

/-- The wording of a faulty timestamp. -/
def TimestampError.message : TimestampError → String
  | malformed text => "Invalid isoformat string: " ++ String.ofList (quotedPoints text)
  | field cause => cause.message

end PocketCalculator
