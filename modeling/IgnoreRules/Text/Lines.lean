/-!
# Lines

A line ends with a carriage return, a line feed, or the one followed by the other.
`splitLines` cuts a text at every line end; `unifyLineEnds` writes each as a line feed.
-/

namespace IgnoreRules.Text

def consToFirst (c : Char) : List (List Char) → List (List Char)
  | [] => [[c]]
  | line :: lines => (c :: line) :: lines

/-- The lines of a text, without their ends. -/
def splitLines : List Char → List (List Char)
  -- There is one more than there are line ends.
  | [] => [[]]
  | '\r' :: '\n' :: rest => [] :: splitLines rest
  | c :: rest => if c = '\r' ∨ c = '\n' then [] :: splitLines rest
      else consToFirst c (splitLines rest)

def unifyLineEnds : List Char → List Char
  | [] => []
  | '\r' :: '\n' :: rest => '\n' :: unifyLineEnds rest
  | '\r' :: rest => '\n' :: unifyLineEnds rest
  | c :: rest => c :: unifyLineEnds rest

end IgnoreRules.Text
