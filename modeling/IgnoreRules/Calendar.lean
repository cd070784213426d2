import IgnoreRules.Number.Notation

/-!
# Dates and times

Days of the Gregorian calendar and moments, which are a day, a time of the day and perhaps
the offset of a time zone. A moment with an offset stands for a point in time, and two such
moments are the same if their points in time are; a moment without one is compared by its
day and time alone.
-/

namespace IgnoreRules

structure Date where
  year : Nat
  month : Nat
  day : Nat
  deriving DecidableEq, Repr

structure Clock where
  hour : Nat
  minute : Nat
  second : Nat
  microsecond : Nat
  deriving DecidableEq, Repr

/-- A day and a time, with the minutes by which the time is ahead of universal time if the
time zone is known. -/
structure Moment where
  date : Date
  clock : Clock
  offset : Option Int
  deriving DecidableEq, Repr

def paddedDigits (width number : Nat) : String := padLeft width (toString number)

namespace Date

def isLeapYear (year : Nat) : Bool :=
  year % 4 = 0 && (year % 100 != 0 || year % 400 = 0)

def daysInMonth (year month : Nat) : Nat :=
  if month = 2 then (if isLeapYear year then 29 else 28)
  else if month = 4 || month = 6 || month = 9 || month = 11 then 30
  else 31

/-- The calendar has the day. -/
def isValid (date : Date) : Bool :=
  -- Years start at one.
  1 ≤ date.year && 1 ≤ date.month && date.month ≤ 12 &&
    1 ≤ date.day && date.day ≤ daysInMonth date.year date.month

def daysBefore (date : Date) : Nat :=
  let years := date.year - 1
  let addMonth := fun days month => days + daysInMonth date.year (month + 1)
  let days := (List.range (date.month - 1)).foldl addMonth (date.day - 1)
  365 * years + years / 4 - years / 100 + years / 400 + days

def toText (date : Date) : String :=
  paddedDigits 4 date.year ++ "-" ++ paddedDigits 2 date.month ++ "-" ++ paddedDigits 2 date.day

end Date

namespace Clock

def isValid (clock : Clock) : Bool :=
  clock.hour < 24 && clock.minute < 60 && clock.second < 60 && clock.microsecond < 1000000

def microsecondsBefore (clock : Clock) : Nat :=
  ((clock.hour * 60 + clock.minute) * 60 + clock.second) * 1000000 + clock.microsecond

/-- A time in two digits each. -/
def toText (clock : Clock) : String :=
  -- Parts of a second are shown only if there are any.
  paddedDigits 2 clock.hour ++ ":" ++ paddedDigits 2 clock.minute ++ ":" ++
    paddedDigits 2 clock.second ++
    (if clock.microsecond = 0 then "" else "." ++ paddedDigits 6 clock.microsecond)

end Clock

namespace Moment

def minutesInDay : Int := 1440

/-- The calendar has the moment, and its time zone is less than a day off. -/
def isValid (moment : Moment) : Bool :=
  moment.date.isValid && moment.clock.isValid &&
    moment.offset.all fun offset => -minutesInDay < offset && offset < minutesInDay

/-- The microseconds from the start of the calendar, in universal time if the time zone is
known. -/
def microseconds (moment : Moment) : Int :=
  let minutes : Int := moment.date.daysBefore * minutesInDay - moment.offset.getD 0
  minutes * 60000000 + moment.clock.microsecondsBefore

def same (left right : Moment) : Bool :=
  left.offset.isSome = right.offset.isSome && left.microseconds = right.microseconds

/-- An offset with its sign, in hours and minutes. -/
def offsetText (offset : Int) : String :=
  (if offset < 0 then "-" else "+") ++ paddedDigits 2 (offset.natAbs / 60) ++ ":" ++
    paddedDigits 2 (offset.natAbs % 60)

def toText (moment : Moment) : String :=
  moment.date.toText ++ " " ++ moment.clock.toText ++ (moment.offset.map offsetText).getD ""

end Moment
end IgnoreRules
