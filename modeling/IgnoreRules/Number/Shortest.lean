import IgnoreRules.Number.Double

/-!
# Shortest decimals

The decimal of a finite positive double is the shortest that reads back as it, and of
those the nearest. For 1, 2, … 17 digits in turn the two neighbours of the double on that
decimal grid are tested against the interval of reals that round to it; the ends of the
interval belong to it when the significand is even.
-/

namespace IgnoreRules.Double

/-- A decimal: digits and the power of ten of the last of them. -/
structure Decimal where
  digits : Nat
  exponent : Int
  deriving DecidableEq, Repr

structure Ratio where
  numerator : Nat
  denominator : Nat

def Ratio.scale (ratio : Ratio) (power : Int) : Ratio :=
  if 0 ≤ power then ⟨ratio.numerator * Nat.pow 10 power.toNat, ratio.denominator⟩
  else ⟨ratio.numerator, ratio.denominator * Nat.pow 10 (-power).toNat⟩

def Decimal.toRatio (decimal : Decimal) : Ratio := Ratio.scale ⟨decimal.digits, 1⟩ decimal.exponent

def Ratio.lt (left right : Ratio) : Bool :=
  left.numerator * right.denominator < right.numerator * left.denominator

/-- `significand * 2 ^ exponent`. -/
def binaryRatio (significand : Nat) (exponent : Int) : Ratio :=
  ⟨significand * Nat.pow 2 exponent.toNat, Nat.pow 2 (-exponent).toNat⟩

/-- The decimal rounds to `significand * 2 ^ exponent`. -/
def readsBack (significand : Nat) (exponent : Int) (decimal : Decimal) : Bool :=
  -- The gap below a power of two is half the gap above it.
  let low := if significand = Nat.pow 2 52 ∧ minExponent < exponent then
      binaryRatio (4 * significand - 1) (exponent - 2)
    else binaryRatio (2 * significand - 1) (exponent - 1)
  let high := binaryRatio (2 * significand + 1) (exponent - 1)
  let value := decimal.toRatio
  if significand % 2 = 0 then !value.lt low && !high.lt value
  else low.lt value && value.lt high

/-- The power of ten just above a positive ratio: the least `p` with `ratio < 10 ^ p`, found
by going up from a lower bound. -/
def decimalPoint (ratio : Ratio) : Nat → Int → Int
  | 0, guess => guess
  | steps + 1, guess =>
    if ratio.lt (Ratio.scale ⟨1, 1⟩ guess) then guess else decimalPoint ratio steps (guess + 1)

/-- The neighbours of a ratio on the grid of a power of ten, the nearer first; a tie goes to
the even one. -/
def neighbours (ratio : Ratio) (exponent : Int) : List Decimal :=
  let scaled := ratio.scale (-exponent)
  let below := scaled.numerator / scaled.denominator
  let twice := 2 * (scaled.numerator % scaled.denominator)
  if twice < scaled.denominator || (twice = scaled.denominator && below % 2 = 0) then
    [⟨below, exponent⟩, ⟨below + 1, exponent⟩]
  else [⟨below + 1, exponent⟩, ⟨below, exponent⟩]

/-- The shortest decimal of a positive double, tried from a number of digits on. -/
def shortestFrom (significand : Nat) (exponent : Int) (point : Int) : Nat → Int → Decimal
  | 0, digits =>
    (neighbours (binaryRatio significand exponent) (point - digits)).headD ⟨0, 0⟩
  | more + 1, digits =>
    match (neighbours (binaryRatio significand exponent) (point - digits)).find?
        (readsBack significand exponent) with
    | some decimal => decimal
    | none => shortestFrom significand exponent point more (digits + 1)

/-- The shortest decimal of `significand * 2 ^ exponent`, for a positive significand. -/
def shortest (significand : Nat) (exponent : Int) : Decimal :=
  let ratio := binaryRatio significand exponent
  let magnitude : Int := (significand.log2 : Int) + exponent
  let lowerBound := magnitude * 30103 / 100000 - 1
  shortestFrom significand exponent (decimalPoint ratio 8 lowerBound) 16 1

end IgnoreRules.Double
