import LoopPainter.Binary64

/-!
# Dates and times of day

Dates of the proleptic Gregorian calendar, times with microseconds and an optional
offset from universal time, and their written forms.  `Moment.ofEpoch` turns
seconds since the start of 1970 into a moment, rounding to the nearest
microsecond with ties to even.
-/

namespace LoopPainter

/-- A day of the Gregorian calendar. -/
structure Day where
  year : Int
  month : Nat
  day : Nat
  deriving DecidableEq, Repr, Inhabited

/-- A day and a time, with the offset from universal time in seconds if it is known. -/
structure Moment where
  date : Day
  hour : Nat
  minute : Nat
  second : Nat
  microsecond : Nat
  offset : Option Int
  deriving DecidableEq, Repr, Inhabited

namespace Day

/-- Whether February has a twenty-ninth day. -/
def isLeapYear (year : Int) : Bool :=
  year % 4 == 0 && (year % 100 != 0 || year % 400 == 0)

/-- The length of a month. -/
def daysInMonth (year : Int) (month : Nat) : Nat :=
  if month == 2 then (if isLeapYear year then 29 else 28)
  else if month == 4 || month == 6 || month == 9 || month == 11 then 30
  else 31

/-- Whether the day exists in a year from 1 to 9999. -/
def isValid (d : Day) : Bool :=
  1 ≤ d.year && d.year ≤ 9999 && 1 ≤ d.month && d.month ≤ 12 &&
    1 ≤ d.day && d.day ≤ daysInMonth d.year d.month

/-- The number of days since the first of January 1970.  Years are counted from March,
so that a leap day is the last day of its year. -/
def toEpochDays (d : Day) : Int :=
  let y := if d.month ≤ 2 then d.year - 1 else d.year
  let era := y / 400
  let yearOfEra := y - era * 400
  let monthFromMarch : Int := (d.month + 9) % 12
  let dayOfYear := (153 * monthFromMarch + 2) / 5 + d.day - 1
  let dayOfEra := yearOfEra * 365 + yearOfEra / 4 - yearOfEra / 100 + dayOfYear
  era * 146097 + dayOfEra - 719468

/-- The day that lies a number of days after the first of January 1970. -/
def ofEpochDays (days : Int) : Day :=
  let z := days + 719468
  let era := z / 146097
  let dayOfEra := z - era * 146097
  let yearOfEra :=
    (dayOfEra - dayOfEra / 1460 + dayOfEra / 36524 - dayOfEra / 146096) / 365
  let dayOfYear := dayOfEra - (365 * yearOfEra + yearOfEra / 4 - yearOfEra / 100)
  let monthFromMarch := (5 * dayOfYear + 2) / 153
  let day := dayOfYear - (153 * monthFromMarch + 2) / 5 + 1
  let month := if monthFromMarch < 10 then monthFromMarch + 3 else monthFromMarch - 9
  let year := yearOfEra + era * 400 + (if month ≤ 2 then 1 else 0)
  ⟨year, month.toNat, day.toNat⟩

/-- A day as `2020-01-31`. -/
def iso (d : Day) : List Char :=
  Text.padded 10 4 d.year.toNat ++ '-' :: Text.padded 10 2 d.month ++
    '-' :: Text.padded 10 2 d.day

end Day

namespace Moment

/-- Why a number of seconds names no moment. -/
inductive Fault where
  | notANumber
  | overflow
  | yearTooLarge
  | yearOutOfRange (year : Int)
  deriving DecidableEq, Repr

/-- The text of a complaint. -/
def Fault.message : Fault → String
  | .notANumber => "Invalid value NaN (not a number)"
  | .overflow => "timestamp out of range for platform time_t"
  | .yearTooLarge => "Value too large for defined data type"
  | .yearOutOfRange year => "year " ++ Text.intString year ++ " is out of range"

/-- Whole seconds and microseconds of a number of seconds. -/
def splitSeconds (x : Binary64) : Except Fault (Int × Nat) :=
  match x.toFraction? with
  | none => .error (if x = .nan then .notANumber else .overflow)
  | some (num, den) =>
    let whole := num.tdiv den
    let rest := num.tmod den
    let micros := (Binary64.ofFraction (rest < 0) rest.natAbs den).mul (.ofInt 1000000)
    match micros.toFraction? with
    | none => .error .overflow
    | some (p, q) =>
      let rounded := Text.signed (p < 0) (roundQuotient p.natAbs q)
      let total := whole * 1000000 + rounded
      .ok (total / 1000000, (total % 1000000).toNat)

/-- The complaint about a year that no date has.  Clocks count the years from 1900 on, and dates
all years, in 32 bits. -/
def badYear (year : Int) : Fault :=
  if year - 1900 < -0x80000000 ∨ 0x80000000 ≤ year - 1900 then .yearTooLarge
  else .yearOutOfRange (year.bmod 0x100000000)

/-- The moment that lies a number of seconds after the start of 1970.  Without an offset it is
told by a clock that may have been set back, so the day before it has to exist as well. -/
def ofEpoch (x : Binary64) (offset : Option Int) : Except Fault Moment := do
  let (seconds, microsecond) ← splitSeconds x
  if seconds < -0x8000000000000000 ∨ 0x8000000000000000 ≤ seconds then .error .overflow
  let date := Day.ofEpochDays (seconds / 86400)
  if date.year < 1 ∨ 9999 < date.year then .error (badYear date.year)
  let dayBefore := Day.ofEpochDays (seconds / 86400 - 1)
  if offset.isNone ∧ dayBefore.year < 1 then .error (.yearOutOfRange dayBefore.year)
  let inDay := (seconds % 86400).toNat
  return ⟨date, inDay / 3600, inDay / 60 % 60, inDay % 60, microsecond, offset⟩

/-- The number of microseconds since the start of 1970, by the clock shown. -/
def clockMicroseconds (m : Moment) : Int :=
  ((m.date.toEpochDays * 24 + m.hour) * 60 + m.minute) * 60000000 +
    m.second * 1000000 + m.microsecond

/-- Whether two moments are the same; one with an offset differs from every one without. -/
def same (a b : Moment) : Bool :=
  match a.offset, b.offset with
  | none, none => a.clockMicroseconds == b.clockMicroseconds
  | some x, some y =>
    a.clockMicroseconds - x * 1000000 == b.clockMicroseconds - y * 1000000
  | _, _ => false

/-- An offset as `+01:00`, with seconds only where there are some. -/
def offsetText (offset : Int) : List Char :=
  let n := offset.natAbs
  (if offset < 0 then '-' else '+') :: Text.padded 10 2 (n / 3600) ++
    ':' :: Text.padded 10 2 (n / 60 % 60) ++
    (if n % 60 = 0 then [] else ':' :: Text.padded 10 2 (n % 60))

/-- The time of day as `10:20:30`. -/
def clockText (m : Moment) : List Char :=
  Text.padded 10 2 m.hour ++ ':' :: Text.padded 10 2 m.minute ++
    ':' :: Text.padded 10 2 m.second

/-- The written form with the given letter between day and time; microseconds only
where there are some. -/
def iso (separator : Char) (m : Moment) : List Char :=
  m.date.iso ++ separator :: m.clockText ++
    (if m.microsecond = 0 then [] else '.' :: Text.padded 10 6 m.microsecond) ++
    (m.offset.elim [] offsetText)

/-- The written form with milliseconds, cut and not rounded, and a final `Z`. -/
def stamp (m : Moment) : List Char :=
  Text.intDecimal m.date.year ++ '-' :: Text.padded 10 2 m.date.month ++
    '-' :: Text.padded 10 2 m.date.day ++ 'T' :: m.clockText ++
    '.' :: Text.padded 10 3 (m.microsecond / 1000) ++ ['Z']

end Moment

end LoopPainter
