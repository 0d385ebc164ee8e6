/-!
# Dates and times

Days of the Gregorian calendar and moments of a day, as a definitions file may hold them.

* `Date`, `Moment`: a day; a day with a time and perhaps a distance from universal time;
* `Date.problem?`, `Moment.problem?`: the first field that is out of range, in words;
* `Moment.isSame`: when two moments are the same;
* `Date.iso`, `Moment.iso`, `Moment.stamp`: the ISO forms;
* `Date.call`, `Moment.call`: the forms that name each field, for messages.
-/

namespace FormulaBook

/-- The digits of `n`, at least `width` of them. -/
def zeroPadded (width n : Nat) : String :=
  let digits := Nat.toDigits 10 n
  String.ofList (List.replicate (width - digits.length) '0' ++ digits)

/-- A day. -/
structure Date where
  year : Nat
  month : Nat
  day : Nat
  deriving DecidableEq, Repr

namespace Date

/-- The leap years of the Gregorian calendar. -/
def isLeap (year : Nat) : Bool := year % 4 == 0 && (year % 100 != 0 || year % 400 == 0)

/-- The number of days of a month. -/
def daysIn (year month : Nat) : Nat :=
  if month == 2 then (if isLeap year then 29 else 28)
  else if month == 4 || month == 6 || month == 9 || month == 11 then 30 else 31

/-- What keeps three numbers from being a day. -/
def problem? (d : Date) : Option String :=
  if d.year == 0 || 9999 < d.year then some s!"year {d.year} is out of range"
  else if d.month == 0 || 12 < d.month then some "month must be in 1..12"
  else if d.day == 0 || daysIn d.year d.month < d.day then some "day is out of range for month"
  else none

/-- The days before a year, counted from the first day of year 1. -/
def daysBeforeYear (year : Nat) : Nat :=
  let y := year - 1
  y * 365 + y / 4 - y / 100 + y / 400

/-- The number of a day, where the first day of year 1 has number 1. -/
def ordinal (d : Date) : Nat :=
  (List.range (d.month - 1)).foldl (fun days m => days + daysIn d.year (m + 1))
    (daysBeforeYear d.year) + d.day

/-- The form `2024-01-02`. -/
def iso (d : Date) : String :=
  zeroPadded 4 d.year ++ "-" ++ zeroPadded 2 d.month ++ "-" ++ zeroPadded 2 d.day

/-- The form `datetime.date(2024, 1, 2)`. -/
def call (d : Date) : String := s!"datetime.date({d.year}, {d.month}, {d.day})"

end Date

/-- A day with a time of day, and the distance from universal time in minutes if it is known. -/
structure Moment where
  date : Date
  hour : Nat
  minute : Nat
  second : Nat
  microsecond : Nat := 0
  offset : Option Int := none
  deriving DecidableEq, Repr

namespace Moment

/-- What keeps the fields from being a moment. -/
def problem? (m : Moment) : Option String :=
  m.date.problem?.or
    (if 23 < m.hour then some "hour must be in 0..23"
    else if 59 < m.minute then some "minute must be in 0..59"
    else if 59 < m.second then some "second must be in 0..59"
    else none)

/-- The microseconds from the first moment of year 1, in universal time if the distance from it is
known. -/
def microseconds (m : Moment) : Int :=
  let minutes : Int := (m.date.ordinal * 24 + m.hour) * 60 + m.minute
  ((minutes - m.offset.getD 0) * 60 + m.second) * 1000000 + m.microsecond

/-- Whether two moments are the same, where both or neither are related to universal time. -/
def isSame (m n : Moment) : Bool :=
  m.offset.isSome == n.offset.isSome && m.microseconds == n.microseconds

/-- A distance from universal time, as in `+05:30`. -/
def isoOffset (minutes : Int) : String :=
  (if minutes < 0 then "-" else "+") ++
    zeroPadded 2 (minutes.natAbs / 60) ++ ":" ++ zeroPadded 2 (minutes.natAbs % 60)

/-- The form `2024-01-02 03:04:05.000006+00:00`, without the parts that are absent. -/
def iso (m : Moment) : String :=
  m.date.iso ++ " " ++ zeroPadded 2 m.hour ++ ":" ++ zeroPadded 2 m.minute ++ ":" ++
    zeroPadded 2 m.second ++
    (if m.microsecond == 0 then "" else "." ++ zeroPadded 6 m.microsecond) ++
    (m.offset.elim "" isoOffset)

/-- The form `2024-01-02T03:04:05.000006Z` of a moment in universal time. -/
def stamp (m : Moment) : String :=
  m.date.iso ++ "T" ++ zeroPadded 2 m.hour ++ ":" ++ zeroPadded 2 m.minute ++ ":" ++
    zeroPadded 2 m.second ++ "." ++ zeroPadded 6 m.microsecond ++ "Z"

/-- A length of time in minutes, whole days apart, as messages name it. -/
def callSpan (minutes : Int) : String :=
  let seconds := minutes * 60
  let days := seconds.fdiv 86400
  let rest := seconds.fmod 86400
  let parts := (if days == 0 then [] else [s!"days={days}"]) ++
    (if rest == 0 then [] else [s!"seconds={rest}"])
  "datetime.timedelta(" ++ (if parts.isEmpty then "0" else ", ".intercalate parts) ++ ")"

/-- The form that names the fields; seconds and microseconds that are zero are left out. -/
def call (m : Moment) : String :=
  let fields := [m.date.year, m.date.month, m.date.day, m.hour, m.minute] ++
    (if m.microsecond != 0 then [m.second, m.microsecond]
    else if m.second != 0 then [m.second] else [])
  let zone := m.offset.elim "" fun minutes =>
    ", tzinfo=datetime.timezone" ++
      (if minutes == 0 then ".utc" else "(" ++ callSpan minutes ++ ")")
  "datetime.datetime(" ++ ", ".intercalate (fields.map toString) ++ zone ++ ")"

end Moment

end FormulaBook
