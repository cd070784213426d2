import IgnoreRules.Value
import IgnoreRules.Yaml.Error

/-!
# YAML dates and time stamps

A date is a year, a month and a day. A time stamp adds a time after a `T` or blanks, with
parts of a second and a time zone if they are given. The month and the day have two digits,
or one or two in a time stamp and in whatever is declared to be a date.
-/

namespace IgnoreRules.Yaml.Timestamp

open Number (isDigit natOfDigits)

/-- The number that digits write, of which there are at least `least` and at most `most`,
and what follows them. -/
def number? (least most : Nat) (text : List Char) : Option (Nat × List Char) :=
  let digits := (text.takeWhile isDigit).take most
  if digits.length < least then none else some (natOfDigits digits, text.drop digits.length)

def after? (c : Char) : List Char → Option (List Char)
  | [] => none
  | first :: rest => if first = c then some rest else none

def isBlank (c : Char) : Bool := c = ' ' || c = '\t'

/-- A date whose month and day have at least some digits, and what follows. -/
def date? (least : Nat) (text : List Char) : Option (Date × List Char) := do
  let (year, text) ← number? 4 4 text
  let (month, text) ← number? least 2 (← after? '-' text)
  let (day, text) ← number? least 2 (← after? '-' text)
  return (⟨year, month, day⟩, text)

/-- What follows the mark between date and time. -/
def afterTimeMark? : List Char → Option (List Char)
  | [] => none
  | c :: rest =>
    if c = 'T' || c = 't' then some rest
    else if isBlank c then some (rest.dropWhile isBlank)
    else none

/-- The microseconds that the digits after a point write. -/
def microseconds (digits : List Char) : Nat :=
  -- Digits beyond the sixth do not count.
  let digits := digits.take 6
  natOfDigits (digits ++ List.replicate (6 - digits.length) '0')

def clock? (text : List Char) : Option (Clock × List Char) := do
  let (hour, text) ← number? 1 2 text
  let (minute, text) ← number? 2 2 (← after? ':' text)
  let (second, text) ← number? 2 2 (← after? ':' text)
  match text with
  | '.' :: rest =>
    return (⟨hour, minute, second, microseconds (rest.takeWhile isDigit)⟩, rest.dropWhile isDigit)
  | rest => return (⟨hour, minute, second, 0⟩, rest)

/-- The minutes that an offset writes behind its sign: hours, and perhaps minutes. -/
def minutes? (text : List Char) : Option Nat := do
  let (hours, text) ← number? 1 2 text
  match text with
  | [] => return 60 * hours
  | _ => do
    let (minutes, text) ← number? 2 2 (← after? ':' text)
    if text.isEmpty then return 60 * hours + minutes else none

/-- The offset that a time zone writes. -/
def zone? (text : List Char) : Option (Option Int) :=
  -- There may be no time zone at all.
  if text.isEmpty then some none
  else match text.dropWhile isBlank with
    | ['Z'] => some (some 0)
    | '+' :: rest => (minutes? rest).map fun minutes => some (minutes : Int)
    | '-' :: rest => (minutes? rest).map fun minutes => some (-(minutes : Int))
    | _ => none

def moment? (text : List Char) : Option Moment := do
  let (date, text) ← date? 1 text
  let (clock, text) ← clock? (← afterTimeMark? text)
  return ⟨date, clock, ← zone? text⟩

def day? (least : Nat) (text : List Char) : Option Date := do
  let (date, text) ← date? least text
  if text.isEmpty then return date else none

/-- A text that is a date or a time stamp without being declared to be one. -/
def isTimestamp (text : List Char) : Bool := (day? 2 text).isSome || (moment? text).isSome

/-- The value of a date or a time stamp, which the calendar has to have. -/
def value (text : List Char) : Except ScalarFault Value :=
  match day? 1 text, moment? text with
  | some date, _ => if date.isValid then .ok (.date date) else .error .noValue
  | none, some moment => if moment.isValid then .ok (.moment moment) else .error .noValue
  | none, none => .error .noTimestamp

end IgnoreRules.Yaml.Timestamp
