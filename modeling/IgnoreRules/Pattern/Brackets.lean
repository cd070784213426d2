/-!
# Bracket expressions in a pattern

A bracket expression runs from an unescaped `[` to the next unescaped `]`; a backslash
escapes any character after it but a line feed. A pattern is cut into pieces, each a text
before a bracket and the contents of the bracket, and a remainder without brackets. From
the first place on where a backslash escapes nothing, or where a bracket is never closed,
everything since the last bracket belongs to the remainder.
-/

namespace IgnoreRules.Pattern

/-- A bracket expression and the text between it and the one before. -/
structure Piece where
  before : List Char
  contents : List Char
  deriving DecidableEq, Repr

/-- The pieces of a pattern and what follows the last of them. -/
structure Division where
  pieces : List Piece
  remainder : List Char
  deriving DecidableEq, Repr

namespace Division

def cons (piece : Piece) (division : Division) : Division :=
  { division with pieces := piece :: division.pieces }

/-- Divide the rest of a pattern. -/
def scan (before : List Char) : Option (List Char) → List Char → Division
  -- The text since the last bracket and, inside a bracket, the contents so far are kept in
  -- reverse.
  | none, '\\' :: c :: rest =>
    if c = '\n' then ⟨[], before.reverse ++ '\\' :: '\n' :: rest⟩
    else scan (c :: '\\' :: before) none rest
  | none, ['\\'] => ⟨[], before.reverse ++ ['\\']⟩
  | none, '[' :: rest => scan before (some []) rest
  | none, c :: rest => scan (c :: before) none rest
  | none, [] => ⟨[], before.reverse⟩
  | some contents, '\\' :: c :: rest =>
    if c = '\n' then ⟨[], before.reverse ++ '[' :: contents.reverse ++ '\\' :: '\n' :: rest⟩
    else scan before (some (c :: '\\' :: contents)) rest
  | some contents, ['\\'] => ⟨[], before.reverse ++ '[' :: contents.reverse ++ ['\\']⟩
  | some contents, ']' :: rest => cons ⟨before.reverse, contents.reverse⟩ (scan [] none rest)
  | some contents, c :: rest => scan before (some (c :: contents)) rest
  | some contents, [] => ⟨[], before.reverse ++ '[' :: contents.reverse⟩

/-- The bracket expressions of a text and what lies between them. -/
def ofText (text : List Char) : Division := scan [] none text

def plain (text : List Char) : Division := ⟨[], text⟩

end Division
end IgnoreRules.Pattern
