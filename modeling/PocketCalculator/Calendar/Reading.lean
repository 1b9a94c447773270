import PocketCalculator.Calendar.Timestamp

/-! # Calendar: timestamps read from text

A timestamp is written as a date, one separating character of any kind, and a time with an optional
zone. The date is a calendar date or a week with an optional day, with hyphens or without; the time
has colons or not, and a fraction of any length, of which six digits count.

* `dateWidth`: how many characters belong to the date.
* `readDate?`, `readClock?`, `readZone?`: the parts.
* `Timestamp.ofPoints`: the whole, and the order in which faults are reported. -/

namespace PocketCalculator

/-- A fixed number of digits at the front, and what follows. -/
def takeDigits? (n : Nat) (cs : List Char) : Option (Nat × List Char) :=
  let digits := cs.take n
  if digits.length = n ∧ digits.all Char.isDigit then
    some (Nat.ofDigitChars 10 digits 0, cs.drop n)
  else none

/-! ### The date -/

/-- The number of characters of the date. It is told by the fifth and sixth character; a week with
a hyphen behind it is followed by a day unless two digits follow; a week without hyphens is
followed by a day when an odd number of digits follows. -/
def dateWidth (cs : List Char) : Option Nat :=
  if cs.length = 7 then some 7
  else if cs[4]? = some '-' then
    if cs[5]? = some 'W' then
      if cs[8]? = some '-' then
        if cs.length = 9 then none
        else if (cs[10]?.map Char.isDigit) = some true then some 8 else some 10
      else some 8
    else some 10
  else if cs[4]? = some 'W' then
    let last := 7 + ((cs.drop 7).takeWhile Char.isDigit).length
    if last < 9 then some last else if last % 2 = 0 then some 7 else some 8
  else some 8

/-- What follows a hyphen, where hyphens are used. -/
def skipHyphen? (hyphens : Bool) (cs : List Char) : Option (List Char) :=
  if hyphens then
    match cs with
    | '-' :: rest => some rest
    | _ => none
  else some cs

/-- The day of a week, the first one if none is written. -/
def readWeekday? (hyphens : Bool) (cs : List Char) : Option Nat :=
  if cs = [] then some 1 else do return (← takeDigits? 1 (← skipHyphen? hyphens cs)).1

/-- The year, month and day of the text of a date. -/
def readDate? (cs : List Char) : Option (Nat × Nat × Nat) := do
  let (year, rest) ← takeDigits? 4 cs
  let hyphens := decide (rest.head? = some '-')
  let rest := if hyphens then rest.tail else rest
  if rest.head? = some 'W' then
    let (week, rest) ← takeDigits? 2 rest.tail
    weekDate year week (← readWeekday? hyphens rest)
  else
    let (month, rest) ← takeDigits? 2 rest
    let (day, _) ← takeDigits? 2 (← skipHyphen? hyphens rest)
    return (year, month, day)

/-! ### The time -/

/-- Hours, minutes, seconds and microseconds as written, and whether nothing follows them. -/
structure ClockText where
  hour : Nat
  minute : Nat
  second : Nat
  microsecond : Nat
  isComplete : Bool
  deriving DecidableEq

/-- What follows one field of a time. -/
inductive FieldEnd where
  /-- The time ends here; one more character may stand behind it. -/
  | stop (isComplete : Bool)
  /-- The next field. -/
  | next (rest : List Char)
  /-- A fraction. -/
  | fraction (rest : List Char)

/-- What follows one field of a time that has colons or not. A single ASCII character at the end
does not belong to the time. -/
def fieldEnd? (colons : Bool) : List Char → Option FieldEnd
  | [] => some (.stop true)
  | c :: rest =>
    if rest = [] ∧ c.toNat < 0x80 then some (.stop (c = '\x00'))
    else if colons ∧ c = ':' then some (.next rest)
    else if c = '.' ∨ c = ',' then some (.fraction rest)
    else if colons then none
    else some (.next (c :: rest))

/-- The microseconds of a fraction: its first six digits, the others being dropped. -/
def readFraction? (cs : List Char) : Option (Nat × Bool) :=
  let width := min 6 cs.length
  match takeDigits? width cs with
  | none => none
  | some (n, rest) =>
    let behind := (rest.dropWhile Char.isDigit).head?
    some (n * Nat.pow 10 (6 - width), behind = none ∨ behind = some '\x00')

/-- A time of hours, then minutes and seconds as far as written, then a fraction. -/
def readClock? (cs : List Char) : Option ClockText := do
  let (hour, rest) ← takeDigits? 2 cs
  let colons := decide (rest.head? = some ':')
  match ← fieldEnd? colons rest with
  | .stop isComplete => return ⟨hour, 0, 0, 0, isComplete⟩
  | .fraction rest =>
    let (microsecond, isComplete) ← readFraction? rest
    return ⟨hour, 0, 0, microsecond, isComplete⟩
  | .next rest =>
    let (minute, rest) ← takeDigits? 2 rest
    match ← fieldEnd? colons rest with
    | .stop isComplete => return ⟨hour, minute, 0, 0, isComplete⟩
    | .fraction rest =>
      let (microsecond, isComplete) ← readFraction? rest
      return ⟨hour, minute, 0, microsecond, isComplete⟩
    | .next rest =>
      let (second, rest) ← takeDigits? 2 rest
      match ← fieldEnd? colons rest with
      | .stop isComplete => return ⟨hour, minute, second, 0, isComplete⟩
      | .fraction rest | .next rest =>
        let (microsecond, isComplete) ← readFraction? rest
        return ⟨hour, minute, second, microsecond, isComplete⟩

/-- Whether a character begins a zone. -/
def beginsZone (c : Char) : Bool := c = '+' || c = '-' || c = 'Z'

/-- The microseconds of the offset that a zone writes: `Z`, or a sign and a time. An offset of no
whole seconds is zero. -/
def readZone? : List Char → Option Int
  | [] => none
  | 'Z' :: rest => if rest = [] ∨ rest.head? = some '\x00' then some 0 else none
  | sign :: rest =>
    match readClock? rest with
    | none => none
    | some t =>
      if t.isComplete then
        let seconds : Int := t.hour * 3600 + t.minute * 60 + t.second
        let n := if seconds = 0 then 0 else seconds * 1000000 + t.microsecond
        some (if sign = '-' then -n else n)
      else none

/-- The text of a time, and the offset behind it if there is one. A time without a zone has to be
complete. -/
def readTime? (cs : List Char) : Option (ClockText × Option Int) :=
  match readClock? (cs.takeWhile (!beginsZone ·)), cs.dropWhile (!beginsZone ·) with
  | none, _ => none
  | some t, [] => if t.isComplete then some (t, none) else none
  | some t, zone => (readZone? zone).map fun offset => (t, some offset)

/-! ### The whole -/

/-- The characters of a text, a single surrogate standing for a separator where a date may end, and
nowhere else. -/
def separated? (points : List CodePoint) : Option (List Char) :=
  let isLone (i : Nat) : Bool := match points[i]? with
    | some (.lone _) => true
    | _ => false
  let place := [7, 8, 10].find? isLone
  (points.zipIdx).mapM fun (point, i) =>
    match point with
    | .char c => some c
    | .lone _ => if place = some i then some 'T' else none

/-- The fields of a text in one of the forms of a timestamp. -/
def readFields? (points : List CodePoint) :
    Option ((Nat × Nat × Nat) × ClockText × Option Int) := do
  let cs ← separated? points
  let width ← dateWidth cs
  let date ← readDate? (cs.take width)
  match cs.drop width with
  | [] => return (date, ⟨0, 0, 0, 0, true⟩, none)
  | _ :: rest => return (date, ← readTime? rest)

namespace Timestamp

/-- The timestamp of fields as read. A faulty offset is reported before a faulty date, and that
before a faulty time. -/
def ofFields (date : Nat × Nat × Nat) (time : ClockText) (offset : Option Int) :
    Except FieldError Timestamp := do
  let offset ← offset.mapM Offset.ofMicroseconds
  let date ← Date.ofFields date.1 date.2.1 date.2.2
  let time ← TimeOfDay.ofFields time.hour time.minute time.second time.microsecond
  return ⟨date, time, offset⟩

/-- The timestamp that a text writes. -/
def ofPoints (points : List CodePoint) : Except TimestampError Timestamp :=
  match readFields? points with
  | none => .error (.malformed points)
  | some (date, time, offset) =>
    match ofFields date time offset with
    | .ok t => .ok t
    | .error cause => .error (.field cause)

/-- The timestamp that a text of characters writes. -/
def ofString (text : String) : Except TimestampError Timestamp :=
  ofPoints (text.toList.map .char)

end Timestamp

end PocketCalculator
