/-!
# Days and times of day

A `Moment` is a day of the calendar, alone or with a time of day.  A time of day may know its
distance from universal time, in seconds.  `Moment.make?` builds a moment from its parts and says
which part is out of range.

A moment has three written forms: `text` and `isoText`, which differ in what stands between day and
time, and `literal`, which names the parts.
-/

/-! ## Points in time

A point in time is written as its date and time of day in universal time, such as
`2024-01-01T00:00:00+00:00`.  `Clock.text` writes the point a number of seconds after the start of
1970.

The date is found from a count of days by eras of four hundred years, 146097 days each.  Inside an
era a year starts in March, so that the day that leap years have more is its last.
-/

namespace Dialogue.Clock

/-- Year, month and day of a day, counted from the first of January 1970. -/
def date (day : Nat) : Nat × Nat × Nat :=
  let shifted := day + 719468
  let era := shifted / 146097
  let dayOfEra := shifted % 146097
  let yearOfEra := (dayOfEra - dayOfEra / 1460 + dayOfEra / 36524 - dayOfEra / 146096) / 365
  let dayOfYear := dayOfEra - (365 * yearOfEra + yearOfEra / 4 - yearOfEra / 100)
  let shiftedMonth := (5 * dayOfYear + 2) / 153
  let dayOfMonth := dayOfYear - (153 * shiftedMonth + 2) / 5 + 1
  let month := if shiftedMonth < 10 then shiftedMonth + 3 else shiftedMonth - 9
  (yearOfEra + 400 * era + (if month ≤ 2 then 1 else 0), month, dayOfMonth)

/-- A number in at least the given count of digits. -/
def padded (width n : Nat) : String :=
  let ds := Nat.repr n
  String.ofList (List.replicate (width - ds.length) '0') ++ ds

/-- The point in time a number of seconds after the start of 1970. -/
def text (seconds : Nat) : String :=
  let (year, month, day) := date (seconds / 86400)
  let rest := seconds % 86400
  padded 4 year ++ "-" ++ padded 2 month ++ "-" ++ padded 2 day ++ "T" ++
    padded 2 (rest / 3600) ++ ":" ++ padded 2 (rest / 60 % 60) ++ ":" ++ padded 2 (rest % 60) ++
    "+00:00"

end Dialogue.Clock

/-! ## Moments -/

namespace Dialogue

/-- A day of the calendar. -/
structure Day where
  year : Nat
  month : Nat
  day : Nat
  deriving DecidableEq, Repr, Inhabited

/-- A time of day to the microsecond, with its distance from universal time in seconds if that is
known. -/
structure TimeOfDay where
  hour : Nat
  minute : Nat
  second : Nat
  microsecond : Nat
  offset : Option Int
  deriving DecidableEq, Repr, Inhabited

/-- A day, alone or with a time of day. -/
structure Moment where
  day : Day
  time : Option TimeOfDay
  deriving DecidableEq, Repr, Inhabited

namespace Moment

/-- The part of a moment that is out of its range. -/
inductive Fault where
  | offset (seconds : Int)
  | year (n : Nat)
  | month
  | day
  | hour
  | minute
  | second
  deriving DecidableEq, Repr

/-- A distance in time in days and seconds, as a literal; the seconds are never negative. -/
def spanLiteral (seconds : Int) : String :=
  let days := Int.fdiv seconds 86400
  let rest := Int.fmod seconds 86400
  let parts := (if days = 0 then [] else ["days=" ++ toString days]) ++
    (if rest = 0 then [] else ["seconds=" ++ toString rest])
  "datetime.timedelta(" ++ (if parts.isEmpty then "0" else String.intercalate ", " parts) ++ ")"

/-- The wording of a fault. -/
def Fault.message : Fault → String
  | .offset seconds => "offset must be a timedelta strictly between -timedelta(hours=24) and " ++
    "timedelta(hours=24), not " ++ spanLiteral seconds ++ "."
  | .year n => "year " ++ toString n ++ " is out of range"
  | .month => "month must be in 1..12"
  | .day => "day is out of range for month"
  | .hour => "hour must be in 0..23"
  | .minute => "minute must be in 0..59"
  | .second => "second must be in 0..59"

/-- Whether a year has a day more. -/
def isLeapYear (year : Nat) : Bool := year % 4 = 0 && (year % 100 != 0 || year % 400 = 0)

/-- The number of days in a month. -/
def daysIn (year month : Nat) : Nat :=
  if month = 2 then (if isLeapYear year then 29 else 28)
  else if month = 4 ∨ month = 6 ∨ month = 9 ∨ month = 11 then 30 else 31

/-- A day from its parts. -/
def day? (d : Day) : Except Fault Day :=
  if d.year = 0 ∨ 9999 < d.year then .error (.year d.year)
  else if d.month = 0 ∨ 12 < d.month then .error .month
  else if d.day = 0 ∨ daysIn d.year d.month < d.day then .error .day
  else .ok d

/-- A moment from its parts; the distance from universal time is looked at first. -/
def make? (d : Day) (time : Option TimeOfDay) : Except Fault Moment := do
  match time.bind (·.offset) with
  | some seconds => if 86400 ≤ seconds.natAbs then .error (.offset seconds)
  | none => pure ()
  let d ← day? d
  match time with
  | none => return ⟨d, none⟩
  | some t =>
    if 23 < t.hour then .error .hour
    else if 59 < t.minute then .error .minute
    else if 59 < t.second then .error .second
    else return ⟨d, some t⟩

/-! ## Written forms -/

/-- The day as year, month and day. -/
def dayText (d : Day) : String :=
  Clock.padded 4 d.year ++ "-" ++ Clock.padded 2 d.month ++ "-" ++ Clock.padded 2 d.day

/-- The distance from universal time in hours and minutes, and seconds where there are any. -/
def offsetText (seconds : Int) : String :=
  let n := seconds.natAbs
  (if seconds < 0 then "-" else "+") ++ Clock.padded 2 (n / 3600) ++ ":" ++
    Clock.padded 2 (n / 60 % 60) ++
    (if n % 60 = 0 then "" else ":" ++ Clock.padded 2 (n % 60))

/-- The time of day, microseconds only where there are any. -/
def timeText (t : TimeOfDay) : String :=
  Clock.padded 2 t.hour ++ ":" ++ Clock.padded 2 t.minute ++ ":" ++ Clock.padded 2 t.second ++
    (if t.microsecond = 0 then "" else "." ++ Clock.padded 6 t.microsecond) ++
    ((t.offset.map offsetText).getD "")

/-- Day and time of day with the given text between them. -/
def textWith (between : String) (m : Moment) : String :=
  dayText m.day ++ ((m.time.map fun t => between ++ timeText t).getD "")

/-- Day and time of day with a blank between them. -/
def text (m : Moment) : String := m.textWith " "

/-- Day and time of day with the letter `T` between them. -/
def isoText (m : Moment) : String := m.textWith "T"

/-- The literal of a distance from universal time. -/
def offsetLiteral (seconds : Int) : String :=
  if seconds = 0 then "datetime.timezone.utc"
  else "datetime.timezone(" ++ spanLiteral seconds ++ ")"

/-- The literal of a moment: its kind and its parts, without seconds and microseconds where nothing
but zeros would be left out. -/
def literal (m : Moment) : String :=
  let day := [m.day.year, m.day.month, m.day.day]
  match m.time with
  | none => "datetime.date(" ++ String.intercalate ", " (day.map toString) ++ ")"
  | some t =>
    let fine := if t.microsecond = 0 then (if t.second = 0 then [] else [t.second])
      else [t.second, t.microsecond]
    let numbers := (day ++ [t.hour, t.minute] ++ fine).map toString
    let offset := (t.offset.map fun s => "tzinfo=" ++ offsetLiteral s).toList
    "datetime.datetime(" ++ String.intercalate ", " (numbers ++ offset) ++ ")"

end Moment

end Dialogue
