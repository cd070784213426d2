import IgnoreRules.Text.Hex
import IgnoreRules.Number.Notation
import IgnoreRules.Text.Lowercase
import IgnoreRules.Yaml.Error

/-!
# YAML numerals

Whole numbers are decimal, binary after `0b`, hexadecimal after `0x`, octal after another
`0`, or sexagesimal with `:` between the places. Decimals need a point, and a sign in
their exponent. Underscores may stand among the digits. For both kinds of numerals there is
a test for the form of those that are not declared to be numbers, and a function that gives
the value of any text. The latter is more liberal: it reads whatever `Number` reads behind
the sign and the mark of the base.
-/

namespace IgnoreRules.Yaml.Numeral

open Number (isDigit splitSign natOfDigits)

def isDigitOrLine (c : Char) : Bool := isDigit c || c = '_'

def withoutLines (text : List Char) : List Char := text.filter (· != '_')

/-- Digits and underscores after a first digit that satisfies a test. -/
def isRun (first : Char → Bool) : List Char → Bool
  | [] => false
  | c :: rest => first c && rest.all isDigitOrLine

def isNonzero (c : Char) : Bool := isDigit c && c != '0'

/-- A number below sixty, in one digit or two. -/
def isSixtieth : List Char → Bool
  | [c] => isDigit c
  | [ten, c] => isDigit ten && ten ≤ '5' && isDigit c
  | _ => false

/-- A sexagesimal whole number with at least two places. -/
def isSexagesimal (text : List Char) : Bool :=
  match text.splitOn ':' with
  | first :: second :: rest => isRun isNonzero first && (second :: rest).all isSixtieth
  | _ => false

def isHexOrLine (c : Char) : Bool := (Text.hexValue? c).isSome || c = '_'

def isBitOrLine (c : Char) : Bool := c = '0' || c = '1' || c = '_'

def isOctalOrLine (c : Char) : Bool := ('0' ≤ c && c ≤ '7') || c = '_'

def isWhole (text : List Char) : Bool :=
  match (splitSign text).2 with
  | ['0'] => true
  | '0' :: 'b' :: digits => !digits.isEmpty && digits.all isBitOrLine
  | '0' :: 'x' :: digits => !digits.isEmpty && digits.all isHexOrLine
  | '0' :: digits => digits.all isOctalOrLine
  | size => isRun isNonzero size || isSexagesimal size

/-- A number that has to be there. -/
def demand (number : Option α) : Except ScalarFault α :=
  match number with
  | some number => .ok number
  | none => .error .noValue

/-- The value of the places of a sexagesimal whole number. -/
def sexagesimal (places : List Int) : Int :=
  places.foldl (fun value place => 60 * value + place) 0

/-- The value of a whole number behind its sign. -/
def sizeOfWhole (size : List Char) : Except ScalarFault Int :=
  match size with
  | [] => .error .noDigits
  | '0' :: 'b' :: digits => demand (Number.readIntIn? 2 digits)
  | '0' :: 'x' :: digits => demand (Number.readIntIn? 16 digits)
  | '0' :: _ => demand (Number.readIntIn? 8 size)
  | _ =>
    if size.contains ':' then
      demand (((size.splitOn ':').mapM Number.readInt?).map sexagesimal)
    else demand (Number.readInt? size)

def wholeValue (text : List Char) : Except ScalarFault Int := do
  let (negative, size) := splitSign (withoutLines text)
  let value ← sizeOfWhole size
  return if negative then -value else value

/-- Nothing, or an exponent with a sign. -/
def isSignedExponent : List Char → Bool
  | [] => true
  | e :: sign :: digits =>
    (e = 'e' || e = 'E') && (sign = '+' || sign = '-') && !digits.isEmpty && digits.all isDigit
  | _ => false

/-- A point, digits and an exponent. -/
def isFraction : List Char → Bool
  | '.' :: rest => isSignedExponent (rest.dropWhile isDigitOrLine)
  | _ => false

/-- The last place of a sexagesimal number, with a point. -/
def isLastPlace (text : List Char) : Bool :=
  isSixtieth (text.takeWhile (· != '.')) &&
    match text.dropWhile (· != '.') with
    | '.' :: rest => rest.all isDigitOrLine
    | _ => false

/-- A sexagesimal number with a point in its last place. -/
def isSexagesimalFraction (text : List Char) : Bool :=
  match text.splitOn ':' with
  | first :: second :: rest =>
    let places := second :: rest
    isRun isDigit first && places.dropLast.all isSixtieth && places.getLast?.any isLastPlace
  | _ => false

/-- A word in lower case, with a capital, or in capitals. -/
def isCasing (word text : List Char) : Bool :=
  text = word || text = word.map Char.toUpper ||
    match word with
    | c :: rest => text = c.toUpper :: rest
    | [] => false

/-- A decimal, an infinity or the mark of what is no number. -/
def isReal (text : List Char) : Bool :=
  let size := (splitSign text).2
  let whole := size.takeWhile isDigitOrLine
  (isRun isDigit whole && isFraction (size.dropWhile isDigitOrLine)) ||
    (match text with
      | '.' :: c :: rest => isDigit c && isFraction ('.' :: c :: rest)
      | _ => false) ||
    isSexagesimalFraction size ||
    (match size with
      | '.' :: word => isCasing ['i', 'n', 'f'] word
      | _ => false) ||
    (match text with
      | '.' :: word => word = ['n', 'a', 'n'] || word = ['N', 'a', 'N'] || word = ['N', 'A', 'N']
      | _ => false)

/-- The places of a sexagesimal number added up, from the last one on, when what the next one
counts is given. -/
def addPlaces (sum : Double) (scale : Nat) : List Double → Except ScalarFault Double
  -- What a place counts is a whole number of any size, which is rounded to a double when it is
  -- multiplied; the products and sums are rounded too.
  | [] => .ok sum
  | place :: rest =>
    match Double.ofNat? scale with
    | some factor => addPlaces (sum.add (place.mul factor)) (60 * scale) rest
    | none => .error .tooLarge

/-- The value of a decimal behind its sign, in lower case. -/
def sizeOfReal (size : List Char) : Except ScalarFault Double :=
  if size = ".inf".toList then .ok (.infinite false)
  else if size = ".nan".toList then .ok .notANumber
  else if size.contains ':' then do
    let places ← demand ((size.splitOn ':').mapM Number.readDouble?)
    addPlaces (.zero false) 1 places.reverse
  else demand (Number.readDouble? size)

/-- A sign and what follows it in a decimal. -/
def splitReal (text : List Char) : Bool × List Char := splitSign (Text.lower (withoutLines text))

def realValue (text : List Char) : Except ScalarFault Double := do
  if (withoutLines text).isEmpty then throw .noDigits
  let (negative, size) := splitReal text
  let value ← sizeOfReal size
  return if negative then value.neg else value

def isNotANumber (text : List Char) : Bool := (splitReal text).2 = ".nan".toList

end IgnoreRules.Yaml.Numeral
