/-!
# Dates and times of day

A date is a day of the proleptic Gregorian calendar, a moment a date with a time of day.  Neither
knows a zone.  A date exists only as a valid one: the year lies in the range that 32 bits of days
can hold, and the day in its month.  A time of day may be a leap second, which is written as second
60 and kept as second 59 with a nanosecond count of a thousand million and more.

`Moment.key` puts the moments on the integer line; order and equality are those of the keys.
-/

namespace ListingQuery

/-- Is the year one with a 29 February? -/
def isLeapYear (year : Int) : Bool :=
  year % 4 == 0 && (year % 100 != 0 || year % 400 == 0)

/-- The number of days of a month; months outside 1 to 12 have none. -/
def daysInMonth (year : Int) (month : Nat) : Nat :=
  match month with
  | 1 | 3 | 5 | 7 | 8 | 10 | 12 => 31
  | 4 | 6 | 9 | 11 => 30
  | 2 => if isLeapYear year then 29 else 28
  | _ => 0

/-- Do year, month and day name a date that can be held? -/
def isDate (year : Int) (month day : Nat) : Bool :=
  -262143 ≤ year && year ≤ 262142 && 1 ≤ day && day ≤ daysInMonth year month

/-- A day of the calendar. -/
structure Date where
  year : Int
  month : Nat
  day : Nat
  isDate : isDate year month day = true
deriving DecidableEq, Repr

/-- The date with the given year, month and day, if there is one. -/
def Date.of? (year : Int) (month day : Nat) : Option Date :=
  if h : ListingQuery.isDate year month day = true then some ⟨year, month, day, h⟩ else none

/-- Do hour, minute, second and nanosecond name a time of day?  Only second 59 may run on into a
leap second. -/
def isTimeOfDay (hour minute second nanosecond : Nat) : Bool :=
  hour < 24 && minute < 60 && second < 60 &&
    (nanosecond < 1000000000 || (second == 59 && nanosecond < 2000000000))

/-- A time of day. -/
structure TimeOfDay where
  hour : Nat
  minute : Nat
  second : Nat
  nanosecond : Nat
  isTimeOfDay : isTimeOfDay hour minute second nanosecond = true
deriving DecidableEq, Repr

namespace TimeOfDay

/-- The time of day with the given parts, if there is one. -/
def of? (hour minute second nanosecond : Nat) : Option TimeOfDay :=
  if h : ListingQuery.isTimeOfDay hour minute second nanosecond = true then
    some ⟨hour, minute, second, nanosecond, h⟩
  else none

/-- The time of day as it is written, where second 60 is the leap second. -/
def ofWritten? (hour minute second nanosecond : Nat) : Option TimeOfDay :=
  if second = 60 then of? hour minute 59 (1000000000 + nanosecond)
  else of? hour minute second nanosecond

/-- The beginning of the day. -/
def midnight : TimeOfDay := ⟨0, 0, 0, 0, rfl⟩

/-- The second as it is written. -/
def writtenSecond (t : TimeOfDay) : Nat :=
  if t.nanosecond < 1000000000 then t.second else t.second + 1

/-- The nanosecond within the written second. -/
def fraction (t : TimeOfDay) : Nat :=
  t.nanosecond % 1000000000

end TimeOfDay

/-- A date and a time of day. -/
structure Moment where
  date : Date
  time : TimeOfDay
deriving DecidableEq, Repr

namespace Moment

/-- The beginning of a date. -/
def startOf (date : Date) : Moment := ⟨date, TimeOfDay.midnight⟩

/-- The place of a moment on the integer line: the parts, from the year to the nanosecond, as the
digits of one number, each in a base that is larger than the part. -/
def key (m : Moment) : Int :=
  let days := (m.date.year * 13 + m.date.month) * 32 + m.date.day
  let seconds := ((days * 24 + m.time.hour) * 60 + m.time.minute) * 60 + m.time.second
  seconds * 2000000000 + m.time.nanosecond

/-- The order of time. -/
def order (a b : Moment) : Ordering :=
  compare a.key b.key

end Moment

end ListingQuery
