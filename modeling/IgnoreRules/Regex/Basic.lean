import IgnoreRules.Regex.CharClass

/-!
# Regular expressions

The expressions that ignore patterns compile to: sequence, ordered choice, anchors and
greedy repetition of a single class. Repetition is confined to classes, so every repeat
consumes a character and a match needs no bound on its steps.
-/

namespace IgnoreRules

inductive Regex
  | empty
  /-- Matches nothing, not even the empty text. -/
  | never
  /-- Matches at the start of the text only. -/
  | atStart
  /-- Matches at the end of the text and before a line feed that ends it. -/
  | atEnd
  | one (set : Regex.CharClass)
  /-- As many characters of a class as the rest of the match allows. -/
  | many (set : Regex.CharClass)
  | seq (first second : Regex)
  /-- The left branch is tried before the right one. -/
  | alt (left right : Regex)
  deriving DecidableEq, Repr

namespace Regex

def sequence : List Regex → Regex
  | [] => .empty
  | [piece] => piece
  | piece :: rest => .seq piece (sequence rest)

/-- A choice among branches, tried from left to right. -/
def choice : List Regex → Regex
  | [] => .never
  | [branch] => branch
  | branch :: rest => .alt branch (choice rest)

end Regex
end IgnoreRules
