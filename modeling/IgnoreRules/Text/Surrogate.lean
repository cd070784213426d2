/-!
# Surrogates

A character beyond U+FFFF is written as two units of sixteen bits, a high surrogate and a
low one. `pairOf` gives the character back.
-/

namespace IgnoreRules.Text

/-- The first unit of a surrogate pair. -/
def isHighSurrogate (unit : Nat) : Bool := 0xD800 ≤ unit && unit < 0xDC00

/-- The second unit of a surrogate pair. -/
def isLowSurrogate (unit : Nat) : Bool := 0xDC00 ≤ unit && unit < 0xE000

def pairOf (high low : Nat) : Char :=
  Char.ofNat (0x10000 + 0x400 * (high - 0xD800) + (low - 0xDC00))

end IgnoreRules.Text
