import IgnoreRules.Log.Logger
import IgnoreRules.Ruleset.Report

/-!
# What rule sets log

Compiling logs a warning for every rule whose brackets are taken literally, in the order
in which the rules are compiled, and then how many rules there are of each kind. Where a
rule has no expression, compiling ends with the warnings so far. An unexpected answer is
logged as a warning that holds the report.
-/

namespace IgnoreRules

open Log (Record)

section Compiling

variable [Text.CharacterNames]

/-- The warning about a pattern whose bracket expressions cannot be kept. -/
def Rule.bracketWarning? (pattern : List Char) : Option Record :=
  (Rule.bracketProblem? pattern).map fun problem =>
    ⟨.warning, "Invalid bracket expression, matching it literally",
      [("pattern", .text (String.ofList pattern)), ("error", .text problem.message)]⟩

def Matcher.warnings (matcher : Matcher) : List Record :=
  matcher.rules.filterMap fun entry => Rule.bracketWarning? entry.rule.pattern

def Ruleset.messages (rules : Ruleset) : List Record :=
  rules.ignoring.warnings ++ rules.reincluding.warnings ++
    [⟨.debug, "Compiled gitignore rules",
      [("positives", .int rules.ignoring.rules.length),
        ("negatives", .int rules.reincluding.rules.length)]⟩]

/-- What is logged about rule lines that do not compile: the warnings up to the first pattern
without an expression. -/
def RuleLines.warnings (lines : RuleLines) : List Record :=
  let patterns := Matcher.sortPatterns lines.ignoring ++ Matcher.sortPatterns lines.reincluding
  (patterns.takeWhile fun pattern => (Rule.compile pattern).regex.isOk).filterMap
    Rule.bracketWarning?

end Compiling

/-- The warning that an answer was not the expected one. -/
def MismatchReport.warning (report : MismatchReport) : Record :=
  ⟨.warning, "Unexpected gitignore verdict\n" ++ String.ofList report.render,
    [("query", .text (String.ofList report.query)), ("path", .text (String.ofList report.path))]⟩

end IgnoreRules
