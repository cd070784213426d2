/-!
# Double-precision numbers

A finite number is a significand below 2^53 times a power of two; the significand is at
least 2^52 unless the exponent is the smallest one, -1074. Every real that a program
writes or adds up is a ratio of natural numbers, and `ofRatio` rounds it to the nearest
double, with ties to the even significand.
-/

namespace IgnoreRules

inductive Double
  | finite (negative : Bool) (significand : Nat) (exponent : Int)
  | infinite (negative : Bool)
  | notANumber
  deriving DecidableEq, Repr

namespace Double

def minExponent : Int := -1074

def maxExponent : Int := 971

def zero (negative : Bool) : Double := .finite negative 0 minExponent

/-- A quotient rounded to the nearest whole number, ties to even. -/
def roundDiv (numerator denominator : Nat) : Nat :=
  let quotient := numerator / denominator
  let twice := 2 * (numerator % denominator)
  if denominator < twice then quotient + 1
  else if twice = denominator && quotient % 2 = 1 then quotient + 1
  else quotient

/-- A ratio divided by a power of two, as a ratio. -/
def scaleDown (numerator denominator : Nat) (exponent : Int) : Nat × Nat :=
  if 0 ≤ exponent then (numerator, denominator * Nat.pow 2 exponent.toNat)
  else (numerator * Nat.pow 2 (-exponent).toNat, denominator)

/-- The exponent that puts a positive ratio between 2^52 and 2^53. -/
def binaryExponent (numerator denominator : Nat) : Int :=
  let estimate : Int := (numerator.log2 : Int) - (denominator.log2 : Int) - 52
  let (scaled, unit) := scaleDown numerator denominator estimate
  if scaled / unit < Nat.pow 2 52 then estimate - 1 else estimate

/-- The double nearest to a ratio. -/
def ofRatio (negative : Bool) (numerator denominator : Nat) : Double :=
  if numerator = 0 then zero negative
  else
    let exponent := max (binaryExponent numerator denominator) minExponent
    let (scaled, unit) := scaleDown numerator denominator exponent
    let significand := roundDiv scaled unit
    let (significand, exponent) :=
      if significand = Nat.pow 2 53 then (Nat.pow 2 52, exponent + 1) else (significand, exponent)
    if maxExponent < exponent then .infinite negative
    else .finite negative significand exponent

/-- The double nearest to `digits * 10 ^ exponent`. -/
def ofDecimal (negative : Bool) (digits : Nat) (exponent : Int) : Double :=
  -- Exponents far outside the range of doubles are settled without computing the power.
  let magnitude : Int := (digits.log2 : Int) / 4 + exponent
  if digits = 0 then zero negative
  else if 400 < magnitude then .infinite negative
  else if magnitude + (digits.log2 : Int) < -1200 then zero negative
  else if 0 ≤ exponent then ofRatio negative (digits * Nat.pow 10 exponent.toNat) 1
  else ofRatio negative digits (Nat.pow 10 (-exponent).toNat)

def toRatio : Double → Option (Int × Nat)
  | .finite negative significand exponent =>
    let size := significand * Nat.pow 2 exponent.toNat
    some (if negative then -(size : Int) else size, Nat.pow 2 (-exponent).toNat)
  | _ => none

def ofSignedRatio (numerator : Int) (denominator : Nat) : Double :=
  ofRatio (numerator < 0) numerator.natAbs denominator

def isZero : Double → Bool
  | .finite _ significand _ => significand = 0
  | _ => false

/-- The sign bit of the number. -/
def isNegative : Double → Bool
  -- That of what is no number is clear.
  | .finite negative _ _ => negative
  | .infinite negative => negative
  | .notANumber => false

def neg : Double → Double
  | .finite negative significand exponent => .finite (!negative) significand exponent
  | .infinite negative => .infinite (!negative)
  | .notANumber => .notANumber

def toInt? (number : Double) : Option Int :=
  match number.toRatio with
  | some (numerator, denominator) =>
    if numerator % denominator = 0 then some (numerator / denominator) else none
  | none => none

/-- The double nearest to a whole number, if that is in the range of doubles. -/
def ofNat? (number : Nat) : Option Double :=
  match ofRatio false number 1 with
  | .finite negative significand exponent => some (.finite negative significand exponent)
  | _ => none

def mul (left right : Double) : Double :=
  let negative := left.isNegative != right.isNegative
  match left, right with
  | .notANumber, _ | _, .notANumber => .notANumber
  | .finite _ leftSize leftExponent, .finite _ rightSize rightExponent =>
    let exponent := leftExponent + rightExponent
    ofRatio negative (leftSize * rightSize * Nat.pow 2 exponent.toNat)
      (Nat.pow 2 (-exponent).toNat)
  | left, right => if left.isZero || right.isZero then .notANumber else .infinite negative

/-- The sum, rounded. -/
def add (left right : Double) : Double :=
  -- Infinities of different signs have no sum, and a sum of zero is negative only if both summands
  -- are.
  match left, right with
  | .notANumber, _ | _, .notANumber => .notANumber
  | .infinite leftSign, .infinite rightSign =>
    if leftSign = rightSign then .infinite leftSign else .notANumber
  | .infinite negative, _ | _, .infinite negative => .infinite negative
  | left, right =>
    match left.toRatio, right.toRatio with
    | some (leftNumber, leftUnit), some (rightNumber, rightUnit) =>
      let sum := leftNumber * rightUnit + rightNumber * leftUnit
      if sum = 0 then zero (left.isNegative && right.isNegative)
      else ofSignedRatio sum (leftUnit * rightUnit)
    | _, _ => .notANumber

end Double
end IgnoreRules
