/-! Calendar dates, times of day and moments. A moment is a date with a time, as a lease is stamped
with and as documents hold. -/

namespace Leasehold

structure Day where
  year : Nat
  month : Nat
  day : Nat
deriving DecidableEq, Repr, Inhabited

structure Clock where
  hour : Nat
  minute : Nat
  second : Nat
  microsecond : Nat
deriving DecidableEq, Repr, Inhabited

/-- A date and a time of day, and how many minutes the clock is ahead of universal time where that is
known. -/
structure Moment where
  date : Day
  clock : Clock
  offset : Option Int
deriving DecidableEq, Repr, Inhabited

namespace Day

def isLeapYear (year : Nat) : Bool :=
  year % 4 == 0 && (year % 100 != 0 || year % 400 == 0)

def monthLength (year month : Nat) : Nat :=
  match month with
  | 2 => if isLeapYear year then 29 else 28
  | 4 | 6 | 9 | 11 => 30
  | _ => 31

/-- The number of a day, the first day of the first year being day one. -/
def number (d : Day) : Nat :=
  let years := d.year - 1
  let months := (List.range (d.month - 1)).map fun m => monthLength d.year (m + 1)
  365 * years + years / 4 - years / 100 + years / 400 + months.foldl (· + ·) 0 + d.day

end Day

def zeroPadded (width n : Nat) : String :=
  let digits := Nat.toDigits 10 n
  String.ofList (List.replicate (width - digits.length) '0' ++ digits)

def Day.text (d : Day) : String :=
  zeroPadded 4 d.year ++ "-" ++ zeroPadded 2 d.month ++ "-" ++ zeroPadded 2 d.day

/-- Hours, minutes and seconds, and microseconds where there are any. -/
def Clock.text (c : Clock) : String :=
  zeroPadded 2 c.hour ++ ":" ++ zeroPadded 2 c.minute ++ ":" ++ zeroPadded 2 c.second ++
    (if c.microsecond == 0 then "" else "." ++ zeroPadded 6 c.microsecond)

namespace Clock

def microseconds (c : Clock) : Nat :=
  ((c.hour * 60 + c.minute) * 60 + c.second) * 1000000 + c.microsecond

end Clock

/-- An offset from universal time: its sign, hours and minutes. -/
def offsetText (minutes : Int) : String :=
  (if minutes < 0 then "-" else "+") ++ zeroPadded 2 (minutes.natAbs / 60) ++ ":" ++
    zeroPadded 2 (minutes.natAbs % 60)

/-- Date and time with a mark between them, and the offset where it is known. -/
def Moment.textWith (mark : String) (m : Moment) : String :=
  m.date.text ++ mark ++ m.clock.text ++ (m.offset.map offsetText).getD ""

/-- The instant that a moment of known offset stands for, in microseconds of universal time. -/
def Moment.instant? (m : Moment) : Option Int :=
  m.offset.map fun minutes =>
    (m.date.number * 86400000000 + m.clock.microseconds : Nat) - minutes * 60000000

def Moment.text (m : Moment) : String :=
  m.textWith "T"

inductive CalendarFault
  | partCount
  /-- A part that is no whole number. -/
  | notWhole
  /-- A part that takes more than 32 bits. -/
  | tooLarge
  | year (n : Int)
  | month
  | day
  | hour
  | minute
  | second
  | microsecond
deriving DecidableEq, Repr

def CalendarFault.message : CalendarFault → String
  | .partCount => "a moment has three to seven numbers"
  | .notWhole => "a moment is made of whole numbers"
  | .tooLarge => "a number takes more than 32 bits"
  | .year n => "year " ++ toString n ++ " is out of range"
  | .month => "month must be in 1..12"
  | .day => "day is out of range for month"
  | .hour => "hour must be in 0..23"
  | .minute => "minute must be in 0..59"
  | .second => "second must be in 0..59"
  | .microsecond => "microsecond must be in 0..999999"

def Day.ofNumbers (year month day : Int) : Except CalendarFault Day :=
  if year < 1 || 9999 < year then .error (.year year)
  else if month < 1 || 12 < month then .error .month
  else if day < 1 || (Day.monthLength year.toNat month.toNat : Int) < day then .error .day
  else .ok ⟨year.toNat, month.toNat, day.toNat⟩

def Clock.ofNumbers (hour minute second microsecond : Int) : Except CalendarFault Clock :=
  if hour < 0 || 23 < hour then .error .hour
  else if minute < 0 || 59 < minute then .error .minute
  else if second < 0 || 59 < second then .error .second
  else if microsecond < 0 || 999999 < microsecond then .error .microsecond
  else .ok ⟨hour.toNat, minute.toNat, second.toNat, microsecond.toNat⟩

def fitsWord (i : Int) : Bool :=
  -2147483648 ≤ i && i < 2147483648

/-- The parts of a moment, each of which must be a whole number of 32 bits. Three must be there; this is
found out in the order of the parts. -/
def momentParts : Nat → List (Option Int) → Except CalendarFault (List Int)
  | given, [] => if given < 3 then .error .partCount else .ok []
  | _, none :: _ => .error .notWhole
  | given, some part :: rest => do
    if !fitsWord part then throw .tooLarge
    return part :: (← momentParts (given + 1) rest)

/-- The moment of a list of numbers: year, month and day, then hour, minute, second and microsecond as
far as they are given. An eighth part would be a zone, and can only be missing. -/
def Moment.ofNumbers (parts : List (Option Int)) : Except CalendarFault Moment := do
  if 8 < parts.length then throw .partCount
  let numbers ← momentParts 0 (parts.take 7)
  let number (i : Nat) : Int := numbers.getD i 0
  let date ← Day.ofNumbers (number 0) (number 1) (number 2)
  let clock ← Clock.ofNumbers (number 3) (number 4) (number 5) (number 6)
  if (parts.getD 7 none).isSome then throw .notWhole
  return ⟨date, clock, none⟩

end Leasehold
