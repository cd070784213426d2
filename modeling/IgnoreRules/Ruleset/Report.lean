import IgnoreRules.Ruleset.Verdict
import IgnoreRules.Text.Quoted

/-!
# Mismatch reports

A caller may say which answer it expects. When the answer is another one, a report shows
everything the answer rests on, and how the two hits combine to it.
-/

namespace IgnoreRules

def Query.name : Query → List Char
  | .accepts => "accepts".toList
  | .denies => "denies".toList
  | .inspects => "inspects".toList

/-- How the two hits combine when the matches are not weighed. -/
def Query.formula : Query → List Char
  | .accepts => "(Accept || !Deny)".toList
  | .denies => "(!Accept && Deny)".toList
  | .inspects => "(Accept || Deny)".toList

structure MismatchReport where
  query : List Char
  path : List Char
  expected : Bool
  acceptPattern : List Char
  acceptHit : Bool
  acceptMatch : Option RuleMatch
  denyPattern : List Char
  denyHit : Bool
  denyMatch : Option RuleMatch
  combine : List Char
  result : Bool
  deriving DecidableEq, Repr

def Ruleset.reportOn (rules : Ruleset) (verdict : Verdict) (expected : Bool) : MismatchReport where
  query := verdict.query.name
  path := verdict.path
  expected := expected
  acceptPattern := rules.reincluding.mergedSource
  acceptHit := verdict.acceptHit
  acceptMatch := verdict.acceptMatch
  denyPattern := rules.ignoring.mergedSource
  denyHit := verdict.denyHit
  denyMatch := verdict.denyMatch
  combine := verdict.query.formula
  result := verdict.result

/-- Answer a question, with a report if another answer was expected. -/
def Ruleset.ask (rules : Ruleset) (query : Query) (path : List Char) (expected : Option Bool) :
    Bool × Option MismatchReport :=
  let verdict := rules.consult query path
  match expected with
  | none => (verdict.result, none)
  | some expected =>
    (verdict.result,
      if expected = verdict.result then none else some (rules.reportOn verdict expected))

namespace MismatchReport

def truth (value : Bool) : List Char := if value then "True".toList else "False".toList

/-- A match, its rule and its place. -/
def evidence : Option RuleMatch → List Char
  | none => []
  | some found =>
    found.text ++ " (rule ".toList ++ Text.quoted found.pattern ++ " at ".toList ++
      (toString found.start).toList ++ [')']

def field (name : String) (value : List Char) : List Char :=
  "    '".toList ++ name.toList ++ "': '".toList ++ value ++ ['\'']

/-- A report as text: the fields in braces under the name of the question, all values
between apostrophes and none of them escaped. -/
def render (report : MismatchReport) : List Char :=
  ['\''] ++ report.query ++ "': \x7b\n".toList ++
    ",\n".toList.intercalate [
      field "query" report.query,
      field "input" report.path,
      field "expected" (truth report.expected),
      field "acceptRe" report.acceptPattern,
      field "acceptTest" (truth report.acceptHit),
      field "acceptMatch" (evidence report.acceptMatch),
      field "denyRe" report.denyPattern,
      field "denyTest" (truth report.denyHit),
      field "denyMatch" (evidence report.denyMatch),
      field "combine" report.combine,
      field "returnVal" (truth report.result)] ++ "\n\x7d".toList

end MismatchReport
end IgnoreRules
