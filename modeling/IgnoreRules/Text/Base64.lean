/-!
# Base 64

Four characters write three bytes, six bits each. Characters that are not of the sixty-four
are passed over, and text after the padding of the last group is not read. A group that
lacks characters without being padded is an error.
-/

namespace IgnoreRules.Text

/-- The six bits that a character writes. -/
def sextet? (c : Char) : Option Nat :=
  if 'A' ≤ c ∧ c ≤ 'Z' then some (c.toNat - 'A'.toNat)
  else if 'a' ≤ c ∧ c ≤ 'z' then some (c.toNat - 'a'.toNat + 26)
  else if '0' ≤ c ∧ c ≤ '9' then some (c.toNat - '0'.toNat + 52)
  else if c = '+' then some 62
  else if c = '/' then some 63
  else none

/-- How many characters of a group have been read, with the bits that are left over. -/
inductive GroupState
  | none
  | one (bits : Nat)
  | two (bits : Nat)
  | three (bits : Nat)

namespace GroupState

/-- The state after six more bits, and the byte that is complete then. -/
def next (state : GroupState) (bits : Nat) : GroupState × Option UInt8 :=
  match state with
  | .none => (.one bits, Option.none)
  | .one held => (.two (bits % 16), some (4 * held + bits / 16).toUInt8)
  | .two held => (.three (bits % 4), some (16 * held + bits / 4).toUInt8)
  | .three held => (.none, some (64 * held + bits).toUInt8)

/-- So many characters of padding complete the group. -/
def isComplete (state : GroupState) (padding : Nat) : Bool :=
  match state with
  | .none | .one _ => false
  | .two _ => 2 ≤ padding
  | .three _ => 1 ≤ padding

end GroupState

/-- The bytes that text writes, in a group that has been read in part and after some
characters of padding. -/
def bytesFrom? (state : GroupState) (padding : Nat) : List Char → Option (List UInt8)
  | [] =>
    match state with
    | .none => some []
    | _ => none
  | c :: rest =>
    if c = '=' then
      if state.isComplete (padding + 1) then some [] else bytesFrom? state (padding + 1) rest
    else match sextet? c with
      | none => bytesFrom? state padding rest
      | some bits =>
        let (state, byte) := state.next bits
        (bytesFrom? state 0 rest).map (byte.toList ++ ·)

/-- The bytes that a text in base 64 writes. -/
def decodeBase64? (text : List Char) : Option (List UInt8) := bytesFrom? .none 0 text

end IgnoreRules.Text
