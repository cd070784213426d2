import IgnoreRules.Number.Shortest
import IgnoreRules.Text.Blank
import IgnoreRules.Text.Digit
import IgnoreRules.Text.Hex

/-!
# Writing and reading numbers

A double is written with the fewest digits that read back. Numbers from 10^-4 up to
10^16 are written out with a decimal point, others with one digit before the point and an
exponent of at least two digits.

In a value given as text, whole numbers and decimals may have blank characters around
them, a sign, and single underscores between digits; digits of any script count. Plain
ASCII text is stricter about the blank characters: only tab to carriage return and the
space may surround a number. A whole number has at most 4300 decimal digits.
-/

namespace IgnoreRules

/-- Drop the zeros at the end of the digits of a decimal. -/
def Double.Decimal.normalize : Nat → Double.Decimal → Double.Decimal
  | 0, decimal => decimal
  | fuel + 1, decimal =>
    if decimal.digits ≠ 0 ∧ decimal.digits % 10 = 0 then
      normalize fuel ⟨decimal.digits / 10, decimal.exponent + 1⟩
    else decimal

/-- Text of a given length, padded with zeros in front. -/
def padLeft (width : Nat) (text : String) : String :=
  String.ofList (List.replicate (width - text.length) '0') ++ text

def Double.Decimal.toText (decimal : Double.Decimal) : String :=
  let decimal := decimal.normalize 32
  let digits := toString decimal.digits
  let count : Int := digits.length
  let point := count + decimal.exponent
  if point ≤ -4 ∨ 16 < point then
    let exponent := point - 1
    let mantissa :=
      if digits.length = 1 then digits
      else String.ofList (digits.toList.take 1) ++ "." ++ String.ofList (digits.toList.drop 1)
    mantissa ++ (if exponent < 0 then "e-" else "e+") ++ padLeft 2 (toString exponent.natAbs)
  else if point ≤ 0 then
    "0." ++ String.ofList (List.replicate (-point).toNat '0') ++ digits
  else if count ≤ point then
    digits ++ String.ofList (List.replicate (point - count).toNat '0') ++ ".0"
  else
    String.ofList (digits.toList.take point.toNat) ++ "." ++
      String.ofList (digits.toList.drop point.toNat)

def Double.toText : Double → String
  | .notANumber => "nan"
  | .infinite negative => if negative then "-inf" else "inf"
  | .finite negative significand exponent =>
    let size :=
      if significand = 0 then "0.0" else (Double.shortest significand exponent).toText
    if negative then "-" ++ size else size

namespace Number

/-- A blank character that may surround a number in ASCII text. -/
def isAsciiBlank (c : Char) : Bool := c = ' ' || ('\t' ≤ c && c ≤ '\r')

/-- The ASCII form of a character in a number: digits of any script become ASCII digits and
blank characters spaces. -/
def toAscii? (c : Char) : Option Char :=
  if c.toNat < 127 then some c
  else if Text.isBlank c then some ' '
  else (Text.decimalValue? c).map fun value => Char.ofNat ('0'.toNat + value)

/-- The text of a number in ASCII, without the blank characters around it. -/
def normalize? (text : List Char) : Option (List Char) := do
  let ascii ← if text.all (·.toNat < 128) then some text else text.mapM toAscii?
  let front := ascii.dropWhile isAsciiBlank
  return (front.reverse.dropWhile isAsciiBlank).reverse

def isDigit (c : Char) : Bool := '0' ≤ c && c ≤ '9'

/-- Drop underscores, each of which must stand between two digits. -/
def dropUnderscores? : Option Char → List Char → Option (List Char)
  | _, [] => some []
  | some before, '_' :: c :: rest =>
    if isDigit before && isDigit c then (dropUnderscores? (some c) rest).map (c :: ·) else none
  | _, c :: rest =>
    if c = '_' then none else (dropUnderscores? (some c) rest).map (c :: ·)

def natOfDigits (digits : List Char) : Nat :=
  digits.foldl (fun value c => 10 * value + (c.toNat - '0'.toNat)) 0

def splitSign : List Char → Bool × List Char
  | '-' :: rest => (true, rest)
  | '+' :: rest => (false, rest)
  | text => (false, text)

def maxDigits : Nat := 4300

def readInt? (text : List Char) : Option Int := do
  let text ← dropUnderscores? none (← normalize? text)
  let (negative, digits) := splitSign text
  if digits.isEmpty || !digits.all isDigit || maxDigits < digits.length then none
  else if negative then some (-(natOfDigits digits : Int)) else some (natOfDigits digits)

/-- The letter that may stand after a zero in front of the digits of a base. -/
def baseLetter? (base : Nat) : Option Char := [(2, 'b'), (8, 'o'), (16, 'x')].lookup base

/-- Drop the mark of a base, a zero and a letter of either case. -/
def dropBaseMark (base : Nat) (text : List Char) : List Char :=
  match text with
  | '0' :: c :: rest => if baseLetter? base = some c.toLower then rest else text
  | _ => text

def natInBase? (base : Nat) (digits : List Char) : Option Nat :=
  if digits.isEmpty then none
  else digits.foldl (fun value c => do
    let digit ← Text.hexValue? c
    if digit < base then return base * (← value) + digit else none) (some 0)

/-- A whole number in base two, eight or sixteen, without underscores. -/
def readIntIn? (base : Nat) (text : List Char) : Option Int := do
  -- The mark of the base may stand behind the sign, and there is no limit to the digits.
  let (negative, size) := splitSign (← normalize? text)
  let number ← natInBase? base (dropBaseMark base size)
  return if negative then -(number : Int) else number

/-- An exponent: `e`, an optional sign and digits, or nothing at all. -/
def readExponent? : List Char → Option Int
  | [] => some 0
  | e :: rest =>
    let (negative, digits) := splitSign rest
    if (e = 'e' || e = 'E') && !digits.isEmpty && digits.all isDigit then
      some (if negative then -(natOfDigits digits : Int) else natOfDigits digits)
    else none

/-- An unsigned decimal in ASCII: digits before or after the point, then an exponent. -/
def readUnsigned? (negative : Bool) (text : List Char) : Option Double :=
  let whole := text.takeWhile isDigit
  let rest := text.dropWhile isDigit
  let (fraction, rest) := match rest with
    | '.' :: rest => (rest.takeWhile isDigit, rest.dropWhile isDigit)
    | rest => ([], rest)
  if whole.isEmpty && fraction.isEmpty then none
  else (readExponent? rest).map fun exponent =>
    Double.ofDecimal negative (natOfDigits (whole ++ fraction)) (exponent - fraction.length)

def asciiLower (c : Char) : Char := c.toLower

/-- A decimal, an infinity or the mark of what is no number. -/
def readDouble? (text : List Char) : Option Double := do
  let text ← dropUnderscores? none (← normalize? text)
  let (negative, size) := splitSign text
  let word := String.ofList (size.map asciiLower)
  if word = "inf" || word = "infinity" then some (.infinite negative)
  else if word = "nan" then some .notANumber
  else readUnsigned? negative size

end Number
end IgnoreRules
