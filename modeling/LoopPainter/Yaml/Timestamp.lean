import LoopPainter.Calendar
import LoopPainter.Yaml.Fault

/-!
# Written dates and times

A date is a year of four digits, a month and a day; a time may follow, after a `T` or
white space, with a fraction of the second and an offset from universal time.  Reading
the form does not check that the date exists; `Timestamp.toDay` and `Timestamp.toMoment`
do, and name the first part that is out of range.
-/

namespace LoopPainter.Yaml

/-- A text without one line break at its end, which every form of scalars allows.  A break that is
all of the text stays. -/
def withoutFinalBreak (s : List Char) : List Char :=
  if 1 < s.length && s.getLast? == some '\n' then s.dropLast else s

/-- A time of day as written. -/
structure WrittenTime where
  hour : Nat
  minute : Nat
  second : Nat
  fraction : List Char
  /-- The sign, hours and minutes of the offset, or a plain `Z`. -/
  zone : Option (Option (Bool × Nat × Nat))

/-- A date as written, with its time if there is one. -/
structure Timestamp where
  year : Nat
  month : List Char
  day : List Char
  time : Option WrittenTime

namespace Timestamp

/-- Exactly `n` digits. -/
def digits? : Nat → List Char → Option (List Char × List Char)
  | 0, s => some ([], s)
  | n + 1, c :: s =>
    if Text.isDigit c then (digits? n s).map fun (ds, s) => (c :: ds, s) else none
  | _ + 1, [] => none

/-- One or two digits, two if possible. -/
def oneOrTwo? (s : List Char) : Option (List Char × List Char) :=
  (digits? 2 s).orElse fun _ => digits? 1 s

/-- A given character. -/
def mark? (c : Char) : List Char → Option (List Char)
  | d :: s => if d == c then some s else none
  | [] => none

/-- The number of a run of digits. -/
def number (ds : List Char) : Nat :=
  Text.ofDigits 10 ds

/-- Drop spaces and tabs. -/
def dropSpaces (s : List Char) : List Char :=
  s.dropWhile fun c => c == ' ' || c == '\t'

/-- The zone that ends a time: nothing, `Z`, or a signed offset. -/
def zone? (s : List Char) : Option (Option (Option (Bool × Nat × Nat))) :=
  if s.isEmpty then some none
  else
    match dropSpaces s with
    | ['Z'] => some (some none)
    | c :: s =>
      if c == '+' || c == '-' then do
        let (hours, s) ← oneOrTwo? s
        if s.isEmpty then return some (some (c == '-', number hours, 0))
        let s ← mark? ':' s
        let (minutes, s) ← digits? 2 s
        if s.isEmpty then return some (some (c == '-', number hours, number minutes)) else none
      else none
    | [] => none

/-- The time after the separator. -/
def time? (s : List Char) : Option WrittenTime := do
  let (hour, s) ← oneOrTwo? s
  let s ← mark? ':' s
  let (minute, s) ← digits? 2 s
  let s ← mark? ':' s
  let (second, s) ← digits? 2 s
  let (fraction, s) :=
    match s with
    | '.' :: s => (s.takeWhile Text.isDigit, s.dropWhile Text.isDigit)
    | s => ([], s)
  let zone ← zone? s
  return ⟨number hour, number minute, number second, fraction, zone⟩

/-- Read a date, with or without a time. -/
def read? (s : List Char) : Option Timestamp := do
  let (year, s) ← digits? 4 (withoutFinalBreak s)
  let s ← mark? '-' s
  let (month, s) ← oneOrTwo? s
  let s ← mark? '-' s
  let (day, s) ← oneOrTwo? s
  let date (time : Option WrittenTime) : Timestamp := ⟨number year, month, day, time⟩
  match s with
  | [] => return date none
  | c :: rest =>
    if c == 'T' || c == 't' then return date (some (← time? rest))
    else if c == ' ' || c == '\t' then return date (some (← time? (dropSpaces rest)))
    else none

/-- The form that makes a plain scalar a date: without a time, month and day take two
digits. -/
def isPlain (s : List Char) : Bool :=
  match read? s with
  | none => false
  | some t => t.time.isSome || (t.month.length == 2 && t.day.length == 2)

/-- The date, if it exists. -/
def toDay (t : Timestamp) : Except Fault Day :=
  let d : Day := ⟨t.year, number t.month, number t.day⟩
  if t.year = 0 then .error (.badDate (.year t.year))
  else if d.month = 0 ∨ 12 < d.month then .error (.badDate .month)
  else if d.isValid then .ok d
  else .error (.badDate .day)

/-- The first six digits of a fraction of a second, as microseconds. -/
def microseconds (fraction : List Char) : Nat :=
  number ((fraction ++ List.replicate 6 '0').take 6)

/-- The offset in seconds; it must be less than a day. -/
def offset (negative : Bool) (hours minutes : Nat) : Except Fault Int :=
  let seconds := Text.signed negative ((hours * 60 + minutes) * 60)
  if seconds.natAbs < 86400 then .ok seconds
  else .error (.badOffset (seconds / 86400) (seconds % 86400))

/-- The moment, if it exists. -/
def toMoment (t : Timestamp) (time : WrittenTime) : Except Fault Moment := do
  let zone ←
    match time.zone with
    | none => pure none
    | some none => pure (some 0)
    | some (some (negative, hours, minutes)) => (offset negative hours minutes).map some
  let date ← t.toDay
  if 23 < time.hour then .error (.badDate .hour)
  if 59 < time.minute then .error (.badDate .minute)
  if 59 < time.second then .error (.badDate .second)
  return ⟨date, time.hour, time.minute, time.second, microseconds time.fraction, zone⟩

end Timestamp

end LoopPainter.Yaml
