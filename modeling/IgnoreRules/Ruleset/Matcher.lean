import IgnoreRules.Pattern.Rule
import IgnoreRules.Regex.Search
import IgnoreRules.Text.Order

/-!
# Matchers

A matcher holds the compiled rules that either all ignore or all re-include, in the order
of their patterns, and one merged expression that tries them in turn. The merged
expression answers whether any rule matches; the longest match is found among the
leftmost matches of the single rules.
-/

namespace IgnoreRules

structure ReadRule where
  rule : Rule
  regex : Regex
  deriving DecidableEq, Repr

structure RuleMatch where
  pattern : List Char
  start : Nat
  text : List Char
  deriving DecidableEq, Repr

def RuleMatch.length (found : RuleMatch) : Nat := found.text.length

def matchLength : Option RuleMatch → Nat
  | some found => found.length
  | none => 0

/-- Compiled rules of one kind. -/
structure Matcher where
  mergedSource : List Char
  merged : Regex
  rules : List ReadRule
  deriving DecidableEq, Repr

/-- The leftmost match of a rule, unless it is empty. -/
def ReadRule.leftmost? (entry : ReadRule) (path : List Char) : Option RuleMatch :=
  match entry.regex.search path with
  | some hit => if hit.text = [] then none else some ⟨entry.rule.pattern, hit.start, hit.text⟩
  | none => none

namespace Matcher

/-- Patterns in the order of their code points. -/
def sortPatterns (patterns : List (List Char)) : List (List Char) :=
  patterns.mergeSort Text.precedes

/-- The merged expression of sources. -/
def mergeSources : List (List Char) → List Char
  -- Without any it matches nothing.
  | [] => "(?!)".toList
  | sources => ['|'].intercalate (sources.map fun source => "(?:".toList ++ source ++ [')'])

def readRule [Text.CharacterNames] (pattern : List Char) : Except Regex.SyntaxError ReadRule := do
  let rule := Rule.compile pattern
  return ⟨rule, ← rule.regex⟩

def ofPatterns [Text.CharacterNames] (patterns : List (List Char)) :
    Except Regex.SyntaxError Matcher := do
  let rules ← (sortPatterns patterns).mapM readRule
  let mergedSource := mergeSources (rules.map (·.rule.source))
  return ⟨mergedSource, ← Regex.read mergedSource, rules⟩

def hits (matcher : Matcher) (path : List Char) : Bool := matcher.merged.hits path

/-- The better of two matches, the earlier one unless the later is longer. -/
def longer : Option RuleMatch → Option RuleMatch → Option RuleMatch
  | none, later => later
  | some best, none => some best
  | some best, some later => if best.length < later.length then some later else some best

/-- The longest of the leftmost matches; of several the one whose pattern sorts first. -/
def longestMatch (matcher : Matcher) (path : List Char) : Option RuleMatch :=
  matcher.rules.foldl (fun best entry => longer best (entry.leftmost? path)) none

end Matcher
end IgnoreRules
