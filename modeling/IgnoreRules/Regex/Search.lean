import IgnoreRules.Regex.Basic

/-!
# Searching

A match is found by backtracking: choices are tried in order, a repeat takes as much as
it can and gives back one character at a time, and the first way to complete the whole
expression wins. `search` reports the match that starts leftmost.

`run` hands every way to match a prefix of the remaining text to a continuation, in the
order of preference, until the continuation accepts one.
-/

namespace IgnoreRules.Regex

/-- At the end of the text, or before the line feed that ends it. -/
def endsHere : List Char → Bool
  | [] => true
  | ['\n'] => true
  | _ => false

/-- Take as many characters of a class as possible, then fewer, down to none. -/
def runMany (set : CharClass) (accept : Nat → List Char → Option α) :
    Nat → List Char → Option α
  | position, [] => accept position []
  | position, c :: rest =>
    if set.contains c then
      match runMany set accept (position + 1) rest with
      | some found => some found
      | none => accept position (c :: rest)
    else accept position (c :: rest)

/-- The first acceptable way to match a prefix of the text that remains at a position. -/
def run : Regex → (Nat → List Char → Option α) → Nat → List Char → Option α
  | .empty, accept, position, rest => accept position rest
  | .never, _, _, _ => none
  | .atStart, accept, position, rest => if position = 0 then accept position rest else none
  | .atEnd, accept, position, rest => if endsHere rest then accept position rest else none
  | .one _, _, _, [] => none
  | .one set, accept, position, c :: rest =>
    if set.contains c then accept (position + 1) rest else none
  | .many set, accept, position, rest => runMany set accept position rest
  | .seq first second, accept, position, rest => first.run (second.run accept) position rest
  | .alt left right, accept, position, rest =>
    match left.run accept position rest with
    | some found => some found
    | none => right.run accept position rest

/-- The end of the preferred match that starts at a position. -/
def matchEnd? (regex : Regex) (position : Nat) (rest : List Char) : Option Nat :=
  regex.run (fun stop _ => some stop) position rest

structure Hit where
  start : Nat
  text : List Char
  deriving DecidableEq, Repr

/-- The leftmost match at or after a position. -/
def searchFrom (regex : Regex) : Nat → List Char → Option Hit
  | position, rest =>
    match regex.matchEnd? position rest with
    | some stop => some ⟨position, rest.take (stop - position)⟩
    | none =>
      match rest with
      | [] => none
      | _ :: tail => searchFrom regex (position + 1) tail

def search (regex : Regex) (text : List Char) : Option Hit := regex.searchFrom 0 text

def hits (regex : Regex) (text : List Char) : Bool := (regex.search text).isSome

end IgnoreRules.Regex
