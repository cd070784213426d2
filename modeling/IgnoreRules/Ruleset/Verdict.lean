import IgnoreRules.Ruleset.Lines
import IgnoreRules.Ruleset.Matcher

/-!
# Verdicts

A rule set answers three questions about a path: is it kept, is it ignored, does any rule
speak of it. A path that only rules of one kind match gets their verdict. When rules of
both kinds match, the longer match decides, and a tie keeps the path.

Paths are written with separators `/`; a backslash counts as one, and a leading separator
may be left out. The path of a directory ends with a separator.
-/

namespace IgnoreRules

def normalizePath (path : List Char) : List Char :=
  match path.map fun c => if c = '\\' then '/' else c with
  | '/' :: rest => '/' :: rest
  | text => '/' :: text

structure Ruleset where
  ignoring : Matcher
  reincluding : Matcher
  deriving DecidableEq, Repr

inductive Query
  | accepts
  | denies
  | inspects
  deriving DecidableEq, Repr

/-- An answer and all it rests on. -/
structure Verdict where
  query : Query
  /-- The path as the rules saw it. -/
  path : List Char
  acceptHit : Bool
  denyHit : Bool
  /-- The longest matches of both kinds, where they decided. -/
  acceptMatch : Option RuleMatch
  denyMatch : Option RuleMatch
  result : Bool
  deriving DecidableEq, Repr

/-- The answer that follows from the hits alone. -/
def Query.ofHits : Query → Bool → Bool → Bool
  | .accepts, acceptHit, denyHit => acceptHit || !denyHit
  | .denies, acceptHit, denyHit => !acceptHit && denyHit
  | .inspects, acceptHit, denyHit => acceptHit || denyHit

/-- The answer that follows from the lengths of two longest matches. -/
def Query.ofLengths : Query → Nat → Nat → Bool
  | .accepts, acceptLength, denyLength => denyLength ≤ acceptLength
  | .denies, acceptLength, denyLength => acceptLength < denyLength
  | .inspects, _, _ => true

/-- The question depends on which match is longer. -/
def Query.weighsMatches : Query → Bool
  | .accepts => true
  | .denies => true
  | .inspects => false

namespace Ruleset

def ofContent [Text.CharacterNames] (content : List Char) :
    Except Regex.SyntaxError Ruleset := do
  let lines := RuleLines.ofContent content
  let ignoring ← Matcher.ofPatterns lines.ignoring
  let reincluding ← Matcher.ofPatterns lines.reincluding
  return ⟨ignoring, reincluding⟩

def consult (rules : Ruleset) (query : Query) (path : List Char) : Verdict :=
  let path := normalizePath path
  let acceptHit := rules.reincluding.hits path
  let denyHit := rules.ignoring.hits path
  if acceptHit && denyHit && query.weighsMatches then
    let acceptMatch := rules.reincluding.longestMatch path
    let denyMatch := rules.ignoring.longestMatch path
    { query, path, acceptHit, denyHit, acceptMatch, denyMatch
      result := query.ofLengths (matchLength acceptMatch) (matchLength denyMatch) }
  else
    { query, path, acceptHit, denyHit, acceptMatch := none, denyMatch := none
      result := query.ofHits acceptHit denyHit }

/-- The path is kept. -/
def accepts (rules : Ruleset) (path : List Char) : Bool := (rules.consult .accepts path).result

/-- The path is ignored. -/
def denies (rules : Ruleset) (path : List Char) : Bool := (rules.consult .denies path).result

/-- Some rule speaks of the path. -/
def inspects (rules : Ruleset) (path : List Char) : Bool :=
  (rules.consult .inspects path).result

def accepted (rules : Ruleset) (paths : List (List Char)) : List (List Char) :=
  paths.filter rules.accepts

def denied (rules : Ruleset) (paths : List (List Char)) : List (List Char) :=
  paths.filter rules.denies

def split (rules : Ruleset) (paths : List (List Char)) :
    List (List Char) × List (List Char) :=
  paths.partition rules.accepts

end Ruleset
end IgnoreRules
