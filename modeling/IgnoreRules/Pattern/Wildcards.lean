/-!
# Wildcards as regular expressions

Pattern text outside bracket expressions becomes a regular expression by a fixed series of
replacements, each of which goes through the whole text once from left to right:

* escapes are dropped and what the regular expression would misread is escaped again;
* `?` is one character of a name;
* `/**/` is one separator or any path between two of them, a leading `**/` is any path or
  none, a final `/**` is the directory itself and everything below it, and any other `**`
  is any text;
* a segment `*` is a name of at least one character, any other `*` is any part of a name;
* separators are escaped.

A final `/**` makes the pattern one for directories. A line feed at the end of the text
does not keep the part before it from being final.

Each works on the text that the ones before it have left. What keeps them apart is the order:
the fragment that one inserts holds nothing that a later one looks for, but for the
separators of the last one. While `*` is replaced, `**` is held back as `heldDoubleStar`.
-/

namespace IgnoreRules.Pattern

/-- Characters that mean something in a regular expression but nothing in a pattern. -/
def isSpecial (c : Char) : Bool :=
  c = '-' || c = '[' || c = ']' || c = '{' || c = '}' || c = '(' || c = ')' || c = '+' ||
    c = '.' || c = '\\' || c = '^' || c = '$' || c = '|'

/-- Drop the backslash of every escape. -/
def unescape : List Char → List Char
  -- A line feed is never escaped.
  | '\\' :: c :: rest => if c = '\n' then '\\' :: '\n' :: unescape rest else c :: unescape rest
  | c :: rest => c :: unescape rest
  | [] => []

def escapeSpecial (text : List Char) : List Char :=
  text.flatMap fun c => if isSpecial c then ['\\', c] else [c]

/-- One character of a name. -/
def nameChar : List Char := ['[', '^', '/', ']']

def questionMarks (text : List Char) : List Char :=
  text.flatMap fun c => if c = '?' then nameChar else [c]

/-- One separator, or a path between two: `(?:/|(?:/.+/))`. -/
def innerPath : List Char :=
  ['(', '?', ':', '/', '|', '(', '?', ':', '/', '.', '+', '/', ')', ')']

/-- A separator or a path between two, for every `/**/`. -/
def innerDoubleStars : List Char → List Char
  | '/' :: '*' :: '*' :: '/' :: rest => innerPath ++ innerDoubleStars rest
  | c :: rest => c :: innerDoubleStars rest
  | [] => []

/-- Nothing, or a path up to a separator: `(?:|(?:.+/))`. -/
def leadingPath : List Char := ['(', '?', ':', '|', '(', '?', ':', '.', '+', '/', ')', ')']

def leadingDoubleStar : List Char → List Char
  | '*' :: '*' :: '/' :: rest => leadingPath ++ rest
  | text => text

/-- The text ends here, but for a line feed. -/
def isFinal : List Char → Bool
  | [] => true
  | ['\n'] => true
  | _ => false

/-- Nothing, or a path from a separator on: `(?:|(?:/.+))`. -/
def trailingPath : List Char := ['(', '?', ':', '|', '(', '?', ':', '/', '.', '+', ')', ')']

/-- Nothing or everything below, for a final `/**`. -/
def trailingDoubleStar : List Char → List Char
  | '/' :: '*' :: '*' :: rest =>
    if isFinal rest then trailingPath ++ rest
    else '/' :: trailingDoubleStar ('*' :: '*' :: rest)
  | c :: rest => c :: trailingDoubleStar rest
  | [] => []

/-- The text has a final `/**`. -/
def hasTrailingDoubleStar : List Char → Bool
  | '/' :: '*' :: '*' :: rest => isFinal rest || hasTrailingDoubleStar ('*' :: '*' :: rest)
  | _ :: rest => hasTrailingDoubleStar rest
  | [] => false

/-- Stands for `**` while single stars are replaced. -/
def heldDoubleStar : List Char :=
  ['\x00', 'D', 'O', 'U', 'B', 'L', 'E', 'S', 'T', 'A', 'R', '\x00']

def holdDoubleStars : List Char → List Char
  | '*' :: '*' :: rest => heldDoubleStar ++ holdDoubleStars rest
  | c :: rest => c :: holdDoubleStars rest
  | [] => []

/-- A name of at least one character. -/
def wholeName : List Char := nameChar ++ ['+']

/-- A name of at least one character, for a `*` between a separator and another separator or the
end. -/
def starSegments : List Char → List Char
  -- The closing separator is spent: it opens no further segment.
  | '/' :: '*' :: '/' :: rest => '/' :: wholeName ++ '/' :: starSegments rest
  | '/' :: '*' :: rest =>
    if isFinal rest then '/' :: wholeName ++ rest else '/' :: starSegments ('*' :: rest)
  | c :: rest => c :: starSegments rest
  | [] => []

/-- Any part of a name. -/
def namePart : List Char := nameChar ++ ['*']

def stars (text : List Char) : List Char :=
  text.flatMap fun c => if c = '*' then namePart else [c]

/-- Any text within a line. -/
def anyText : List Char := ['.', '*']

def releaseDoubleStars : List Char → List Char
  | '\x00' :: 'D' :: 'O' :: 'U' :: 'B' :: 'L' :: 'E' :: 'S' :: 'T' :: 'A' :: 'R' :: '\x00' ::
      rest => anyText ++ releaseDoubleStars rest
  | c :: rest => c :: releaseDoubleStars rest
  | [] => []

def escapeSeparators (text : List Char) : List Char :=
  text.flatMap fun c => if c = '/' then ['\\', '/'] else [c]

/-- The steps before a final `/**` is looked for. -/
def openWildcards (text : List Char) : List Char :=
  leadingDoubleStar (innerDoubleStars (questionMarks (escapeSpecial (unescape text))))

/-- The steps after it. -/
def closeWildcards (text : List Char) : List Char :=
  escapeSeparators (releaseDoubleStars (stars (starSegments (holdDoubleStars text))))

/-- A stretch of pattern text as a regular expression. -/
structure Fragment where
  source : List Char
  /-- The stretch ends in `/**` and so asks for a directory. -/
  forcesDirectory : Bool
  deriving DecidableEq, Repr

/-- The regular expression of pattern text that lies outside bracket expressions. -/
def Fragment.ofText (text : List Char) : Fragment where
  source := closeWildcards (trailingDoubleStar (openWildcards text))
  forcesDirectory := hasTrailingDoubleStar (openWildcards text)

end IgnoreRules.Pattern
