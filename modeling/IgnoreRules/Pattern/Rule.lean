import IgnoreRules.Pattern.Brackets
import IgnoreRules.Pattern.Wildcards
import IgnoreRules.Regex.Reader
import IgnoreRules.Text.Blank

/-!
# Rules

A rule is a pattern line with the regular expression it stands for. A leading separator,
or one anywhere in the text around bracket expressions, roots the rule at the directory of
the rule file; a final separator, or a final `/**`, restricts it to directories. A match
begins with a separator and ends at one or at the end of the path.

Bracket expressions are copied as they stand. When the resulting expression cannot be
read, the whole pattern is compiled once more with its brackets as ordinary characters,
unless a character code in it is too large: such a pattern has no expression.
-/

namespace IgnoreRules

open Pattern

structure Rule where
  pattern : List Char
  /-- The regular expression, as text. -/
  source : List Char
  rooted : Bool
  directoryOnly : Bool
  deriving DecidableEq, Repr

namespace Rule

structure Outline where
  body : List Char
  rooted : Bool
  directoryOnly : Bool
  deriving DecidableEq, Repr

/-- Take a separator off the front and then one off the end. -/
def Outline.ofPattern (pattern : List Char) : Outline :=
  let rooted := pattern.head? = some '/'
  let text := if rooted then pattern.tail else pattern
  let directoryOnly := text.getLast? = some '/'
  ⟨if directoryOnly then text.dropLast else text, rooted, directoryOnly⟩

/-- A separator lies in the text around bracket expressions. -/
def hasSeparator (division : Division) : Bool :=
  -- A blank remainder counts for nothing.
  division.pieces.any (·.before.contains '/') || division.remainder.contains '/'

/-- The regular expression of a piece: that of its text, then its bracket as it stands. -/
def pieceSource (piece : Piece) : List Char :=
  (Fragment.ofText piece.before).source ++ '[' :: piece.contents ++ [']']

/-- The regular expression of the remainder. -/
def remainderSource (remainder : List Char) : List Char :=
  -- A blank remainder is dropped.
  if Text.trim remainder = [] then [] else (Fragment.ofText remainder).source

/-- Some stretch of text ends in `/**`. -/
def forcesDirectory (division : Division) : Bool :=
  division.pieces.any (fun piece => (Fragment.ofText piece.before).forcesDirectory) ||
    (Fragment.ofText division.remainder).forcesDirectory

/-- Put the regular expression of a divided pattern together. -/
def assemble (pattern : List Char) (outline : Outline) (division : Division) : Rule :=
  let rooted := outline.rooted || hasSeparator division
  let directoryOnly := outline.directoryOnly || forcesDirectory division
  { pattern, rooted, directoryOnly
    source :=
      (if rooted then "^\\/".toList else "\\/".toList) ++
        division.pieces.flatMap pieceSource ++ remainderSource division.remainder ++
        (if directoryOnly then "\\/".toList else "(?:$|\\/)".toList) }

def withBrackets (pattern : List Char) : Rule :=
  let outline := Outline.ofPattern pattern
  assemble pattern outline (.ofText outline.body)

def withoutBrackets (pattern : List Char) : Rule :=
  let outline := Outline.ofPattern pattern
  assemble pattern outline (.plain outline.body)

section Compiling

variable [Text.CharacterNames]

/-- Why the bracket expressions of a pattern are taken for ordinary characters. -/
def bracketProblem? (pattern : List Char) : Option Regex.SyntaxError :=
  match Regex.read (withBrackets pattern).source with
  | .ok _ => none
  | .error .codeTooLarge => none
  | .error problem => some problem

def compile (pattern : List Char) : Rule :=
  if (bracketProblem? pattern).isSome then withoutBrackets pattern else withBrackets pattern

def regex (rule : Rule) : Except Regex.SyntaxError Regex := Regex.read rule.source

/-- A pattern has no expression: a character code in it is too large. -/
def Unreadable (pattern : List Char) : Prop := (compile pattern).regex = .error .codeTooLarge

end Compiling

end Rule
end IgnoreRules
