import IgnoreRules.Text.Blank
import IgnoreRules.Text.Lines

/-!
# Rule lines

A rule file holds one rule a line. Blank characters around a line are dropped, and so are
empty lines and comments, which start with `#`. A line that starts with `!` re-includes
what other rules ignore; what follows the `!` is its pattern, taken as it stands.
-/

namespace IgnoreRules

/-- The patterns of a rule file in file order, by what they do. -/
structure RuleLines where
  ignoring : List (List Char)
  reincluding : List (List Char)
  deriving DecidableEq, Repr

namespace RuleLines

def contentLines (content : List Char) : List (List Char) :=
  (Text.splitLines content).map Text.trim

/-- Sort one more line, the first of a file, into place. -/
def cons (line : List Char) (lines : RuleLines) : RuleLines :=
  match line with
  | [] => lines
  | '#' :: _ => lines
  | '!' :: pattern => { lines with reincluding := pattern :: lines.reincluding }
  | pattern => { lines with ignoring := pattern :: lines.ignoring }

def ofContent (content : List Char) : RuleLines :=
  (contentLines content).foldr cons ⟨[], []⟩

end RuleLines
end IgnoreRules
