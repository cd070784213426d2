import IgnoreRules.Calendar
import IgnoreRules.Text.Quoted

/-!
# Values

Settings and log contexts hold values of any of a few kinds. `Value.toText` is how a value
shows in a message: text and dates as they are, and quoted inside lists and maps. Maps keep
the order of their entries, and keys that are equal as numbers are one key, so `1`, `1.0`
and the truth value `true` are the same.
-/

namespace IgnoreRules

/-- A setting, or a value in a log context. -/
inductive Value
  | null
  | bool (value : Bool)
  | int (value : Int)
  | real (value : Double)
  | text (value : String)
  | bytes (content : List UInt8)
  | date (day : Date)
  | moment (time : Moment)
  | list (items : List Value)
  | map (entries : List (Value × Value))
  | set (items : List Value)
  | pair (first second : Value)
  /-- A list or a map that this place is a part of. -/
  | enclosing (isMap : Bool)
  deriving Repr, Inhabited

def Date.toQuoted (date : Date) : String :=
  "datetime.date(" ++ ", ".intercalate ([date.year, date.month, date.day].map toString) ++ ")"

/-- The parts of a time that show inside a list or a map: hours and minutes, and as many of
the others as it takes to show all that are not zero. -/
def Clock.shownParts (clock : Clock) : List Nat :=
  [clock.hour, clock.minute] ++
    (if clock.microsecond != 0 then [clock.second, clock.microsecond]
      else if clock.second != 0 then [clock.second]
      else [])

/-- A time zone as it shows inside a list or a map: days, which may be negative, and
seconds. -/
def Moment.quotedOffset (offset : Int) : String :=
  if offset = 0 then "datetime.timezone.utc"
  else
    let seconds := "seconds=" ++ toString ((offset.fmod minutesInDay) * 60)
    let days := if offset < 0 then "days=-1, " else ""
    "datetime.timezone(datetime.timedelta(" ++ days ++ seconds ++ "))"

def Moment.toQuoted (moment : Moment) : String :=
  let numbers := [moment.date.year, moment.date.month, moment.date.day] ++ moment.clock.shownParts
  let zone := moment.offset.toList.map fun offset => "tzinfo=" ++ quotedOffset offset
  "datetime.datetime(" ++ ", ".intercalate (numbers.map toString ++ zone) ++ ")"

/-- A byte between quotes. -/
def quotedByte (quote : Char) (byte : UInt8) : List Char :=
  -- Only ASCII is shown as it is.
  if byte < 128 then Text.quotedChar quote (Char.ofNat byte.toNat)
  else ['\\', 'x'] ++ Text.hexDigits 2 byte.toNat

/-- Bytes in quotes, after a `b`. -/
def quotedBytes (bytes : List UInt8) : String :=
  let quote := Text.quoteFor (bytes.map fun byte => Char.ofNat byte.toNat)
  "b" ++ String.ofList (quote :: bytes.flatMap (quotedByte quote) ++ [quote])

namespace Value

mutual

def toQuoted : Value → String
  | .null => "None"
  | .bool value => if value then "True" else "False"
  | .int value => toString value
  | .real value => value.toText
  | .text value => String.ofList (Text.quoted value.toList)
  | .bytes content => quotedBytes content
  | .date day => day.toQuoted
  | .moment time => time.toQuoted
  | .list items => "[" ++ ", ".intercalate (quotedItems items) ++ "]"
  | .map entries => "\x7b" ++ ", ".intercalate (quotedEntries entries) ++ "\x7d"
  | .set [] => "set()"
  | .set items => "\x7b" ++ ", ".intercalate (quotedItems items) ++ "\x7d"
  | .pair first second => "(" ++ first.toQuoted ++ ", " ++ second.toQuoted ++ ")"
  | .enclosing isMap => if isMap then "\x7b...\x7d" else "[...]"

def quotedItems : List Value → List String
  | [] => []
  | item :: rest => item.toQuoted :: quotedItems rest

def quotedEntries : List (Value × Value) → List String
  | [] => []
  | (key, value) :: rest => (key.toQuoted ++ ": " ++ value.toQuoted) :: quotedEntries rest

end

def toText : Value → String
  | .text value => value
  | .date day => day.toText
  | .moment time => time.toText
  | value => value.toQuoted

/-- The value is neither null, false, zero nor empty. -/
def isTruthy : Value → Bool
  | .null => false
  | .bool value => value
  | .int value => value != 0
  | .real value => !value.isZero
  | .text value => value != ""
  | .bytes content => !content.isEmpty
  | .list items => !items.isEmpty
  | .map entries => !entries.isEmpty
  | .set items => !items.isEmpty
  | .date _ | .moment _ | .pair _ _ | .enclosing _ => true

def isNull : Value → Bool
  | .null => true
  | _ => false

/-- The whole number that a key stands for. -/
def wholeNumber? : Value → Option Int
  | .bool value => some (if value then 1 else 0)
  | .int value => some value
  | .real value => value.toInt?
  | _ => none

/-- Two keys are one. -/
def sameKey (left right : Value) : Bool :=
  -- Lists, maps and sets are no keys.
  match left.wholeNumber?, right.wholeNumber? with
  | some left, some right => left = right
  | none, none =>
    match left, right with
    | .null, .null => true
    | .real left, .real right => left = right && left != .notANumber
    | .text left, .text right => left = right
    | .bytes left, .bytes right => left = right
    | .date left, .date right => left = right
    | .moment left, .moment right => left.same right
    | _, _ => false
  | _, _ => false

/-- Set the value of a key. -/
def putEntry (entries : List (Value × Value)) (key value : Value) : List (Value × Value) :=
  -- A new key goes to the end, a known one keeps its place.
  match entries with
  | [] => [(key, value)]
  | (first, old) :: rest =>
    if first.sameKey key then (first, value) :: rest
    else (first, old) :: putEntry rest key value

/-- The value of a key that is text. -/
def lookup? (entries : List (Value × Value)) (key : String) : Option Value :=
  (entries.find? fun entry => entry.1.sameKey (.text key)).map (·.2)

def field? (value : Value) (key : String) : Option Value :=
  match value with
  | .map entries => lookup? entries key
  | _ => none

/-- The value that a path of keys leads to through nested maps. -/
def at? (value : Value) : List String → Option Value
  | [] => some value
  | key :: rest =>
    match value.field? key with
    | some inner => inner.at? rest
    | none => none

def ofFields (fields : List (String × Value)) : Value :=
  .map (fields.map fun field => (.text field.1, field.2))

end Value
end IgnoreRules
