import IgnoreRules.Proofs.Ruleset.Precedence
import IgnoreRules.Ruleset.Report
import IgnoreRules.Text.AsciiNames

/-!
# Reports explain their verdicts

Whoever reads a report can work out the verdict once more from the report alone. Where two matches
are in it, the longer one decides. Elsewhere the formula of the question does, whose text has one
reading, so that it has one value for the two hits. The matches are there exactly where the formula
does not decide, because a matcher that hits a path has a longest match in it.
-/

namespace IgnoreRules

/-! ## Formulas -/

inductive Connective
  | conjunction
  | disjunction
  deriving DecidableEq, Repr

namespace Connective

def text : Connective → List Char
  | conjunction => " && ".toList
  | disjunction => " || ".toList

def value : Connective → Bool → Bool → Bool
  | conjunction => and
  | disjunction => or

theorem text_append_inj (connective other : Connective) (rest more : List Char)
    (same : connective.text ++ rest = other.text ++ more) : connective = other ∧ rest = more := by
  have marks : connective.text[1]? = other.text[1]? := by
    have long (connective : Connective) : 1 < connective.text.length := by
      cases connective <;> decide
    rw [← List.getElem?_append_left (long connective), same, List.getElem?_append_left (long other)]
  cases connective with
  | conjunction =>
    cases other with
    | conjunction => exact ⟨rfl, List.append_cancel_left same⟩
    | disjunction => exact absurd marks (by decide)
  | disjunction =>
    cases other with
    | conjunction => exact absurd marks (by decide)
    | disjunction => exact ⟨rfl, List.append_cancel_left same⟩

end Connective

/-- What can be said of the hits of the two kinds of rules. -/
inductive Formula
  | accept
  | deny
  | negation (inner : Formula)
  | joined (connective : Connective) (left right : Formula)
  deriving DecidableEq, Repr

namespace Formula

/-- A formula as text, with parentheses around every two that are joined. -/
def text : Formula → List Char
  | accept => "Accept".toList
  | deny => "Deny".toList
  | negation inner => '!' :: inner.text
  | joined connective left right =>
    '(' :: (left.text ++ (connective.text ++ (right.text ++ [')'])))

def value (acceptHit denyHit : Bool) : Formula → Bool
  | accept => acceptHit
  | deny => denyHit
  | negation inner => !inner.value acceptHit denyHit
  | joined connective left right =>
    connective.value (left.value acceptHit denyHit) (right.value acceptHit denyHit)

/-- The character that the text of a formula starts with, by which the kinds are told apart. -/
def mark : Formula → Char
  | accept => 'A'
  | deny => 'D'
  | negation _ => '!'
  | joined _ _ _ => '('

theorem mark_eq_of_append (formula other : Formula) (rest more : List Char)
    (same : formula.text ++ rest = other.text ++ more) : formula.mark = other.mark := by
  have head (formula : Formula) (rest : List Char) :
      (formula.text ++ rest).head? = some formula.mark := by
    cases formula <;> rfl
  apply Option.some.inj
  rw [← head formula rest, same, head]

/-- A text starts with one formula at most. -/
theorem text_append_inj (formula other : Formula) (rest more : List Char)
    (same : formula.text ++ rest = other.text ++ more) : formula = other ∧ rest = more := by
  -- Parentheses around every two keep the parts apart, so that each part is read off in turn.
  induction formula generalizing other rest more with
  | accept =>
    have marks := mark_eq_of_append _ _ _ _ same
    cases other with
    | accept => exact ⟨rfl, List.append_cancel_left same⟩
    | _ => simp [mark] at marks
  | deny =>
    have marks := mark_eq_of_append _ _ _ _ same
    cases other with
    | deny => exact ⟨rfl, List.append_cancel_left same⟩
    | _ => simp [mark] at marks
  | negation inner ih =>
    have marks := mark_eq_of_append _ _ _ _ same
    cases other with
    | negation inner' =>
      obtain ⟨rfl, rfl⟩ := ih inner' rest more (List.cons.inj same).2
      exact ⟨rfl, rfl⟩
    | _ => simp [mark] at marks
  | joined connective left right first second =>
    have marks := mark_eq_of_append _ _ _ _ same
    cases other with
    | joined connective' left' right' =>
      have inside := (List.cons.inj same).2
      simp only [List.append_eq, List.append_assoc] at inside
      obtain ⟨rfl, behind⟩ := first left' _ _ inside
      obtain ⟨rfl, onward⟩ := connective.text_append_inj connective' _ _ behind
      obtain ⟨rfl, ended⟩ := second right' _ _ onward
      exact ⟨rfl, (List.cons.inj ended).2⟩
    | _ => simp [mark] at marks

theorem text_inj (formula other : Formula) (same : formula.text = other.text) : formula = other :=
  (text_append_inj formula other [] [] (by rw [same])).1

end Formula

/-- The formula of a question, of which the question holds the text. -/
def Query.reading : Query → Formula
  | .accepts => .joined .disjunction .accept (.negation .deny)
  | .denies => .joined .conjunction (.negation .accept) .deny
  | .inspects => .joined .disjunction .accept .deny

theorem Query.text_reading (query : Query) : query.reading.text = query.formula := by
  cases query <;> rfl

theorem Query.value_reading (query : Query) (acceptHit denyHit : Bool) :
    query.reading.value acceptHit denyHit = query.ofHits acceptHit denyHit := by
  cases query <;> rfl

/-! ## Working out a verdict -/

/-- The rule of a pattern hits a path. -/
def Rule.Hits [Text.CharacterNames] (pattern path : List Char) : Prop :=
  ∃ regex, (compile pattern).regex = .ok regex ∧ regex.hits path = true

/-- A report implies an answer, by nothing but what is written in it. -/
inductive MismatchReport.Implies (report : MismatchReport) : Bool → Prop
  | kept (acceptMatch denyMatch : RuleMatch) (query : report.query = Query.accepts.name)
    (accept : report.acceptMatch = some acceptMatch) (deny : report.denyMatch = some denyMatch) :
    Implies report (denyMatch.length ≤ acceptMatch.length)
  | ignored (acceptMatch denyMatch : RuleMatch) (query : report.query = Query.denies.name)
    (accept : report.acceptMatch = some acceptMatch) (deny : report.denyMatch = some denyMatch) :
    Implies report (acceptMatch.length < denyMatch.length)
  | combined (formula : Formula) (accept : report.acceptMatch = none)
    (deny : report.denyMatch = none) (read : formula.text = report.combine) :
    Implies report (formula.value report.acceptHit report.denyHit)

theorem Query.name_inj (query other : Query) (same : query.name = other.name) : query = other := by
  revert same
  cases query <;> cases other <;> decide

namespace MismatchReport

/-- Two matches imply the answer that follows from their lengths. -/
theorem implies_of_matches (report : MismatchReport) (query : Query) (weighed : query ≠ .inspects)
    (named : report.query = query.name) (acceptMatch denyMatch : RuleMatch)
    (accept : report.acceptMatch = some acceptMatch) (deny : report.denyMatch = some denyMatch)
    (answer : Bool) :
    report.Implies answer ↔ answer = query.ofLengths acceptMatch.length denyMatch.length := by
  constructor
  · intro implies
    cases implies with
    | kept acceptToo denyToo asked acceptedToo deniedToo =>
      obtain rfl := Query.name_inj _ _ (named.symm.trans asked)
      obtain rfl := Option.some.inj (accept.symm.trans acceptedToo)
      obtain rfl := Option.some.inj (deny.symm.trans deniedToo)
      rfl
    | ignored acceptToo denyToo asked acceptedToo deniedToo =>
      obtain rfl := Query.name_inj _ _ (named.symm.trans asked)
      obtain rfl := Option.some.inj (accept.symm.trans acceptedToo)
      obtain rfl := Option.some.inj (deny.symm.trans deniedToo)
      rfl
    | combined formula none =>
      rw [accept] at none
      cases none
  · intro same
    subst same
    cases query with
    | accepts => exact .kept acceptMatch denyMatch named accept deny
    | denies => exact .ignored acceptMatch denyMatch named accept deny
    | inspects => exact absurd rfl weighed

/-- Without matches the answer is the value of the formula. -/
theorem implies_of_formula (report : MismatchReport) (query : Query)
    (combine : report.combine = query.formula) (accept : report.acceptMatch = none)
    (deny : report.denyMatch = none) (answer : Bool) :
    report.Implies answer ↔ answer = query.ofHits report.acceptHit report.denyHit := by
  have reading := query.text_reading.trans combine.symm
  rw [← query.value_reading]
  constructor
  · intro implies
    cases implies with
    | kept acceptToo denyToo _ found =>
      rw [accept] at found
      cases found
    | ignored acceptToo denyToo _ found =>
      rw [accept] at found
      cases found
    | combined formula _ _ read =>
      rw [formula.text_inj query.reading (read.trans reading.symm)]
  · intro same
    subst same
    exact .combined query.reading accept deny reading

end MismatchReport

/-- A report on a question about a path says what the answer rests on. -/
structure MismatchReport.Explains [Text.CharacterNames] (report : MismatchReport)
    (lines : RuleLines) (asked : Query) (path : List Char) (wanted answer : Bool) : Prop where
  query : report.query = asked.name
  path : report.path = normalizePath path
  expected : report.expected = wanted
  result : report.result = answer
  acceptHit : report.acceptHit = true ↔ ∃ pattern ∈ lines.reincluding, Rule.Hits pattern report.path
  denyHit : report.denyHit = true ↔ ∃ pattern ∈ lines.ignoring, Rule.Hits pattern report.path
  acceptMatch : report.acceptMatch.isSome = true ↔
    asked ≠ .inspects ∧ report.acceptHit = true ∧ report.denyHit = true
  denyMatch : report.denyMatch.isSome = true ↔
    asked ≠ .inspects ∧ report.acceptHit = true ∧ report.denyHit = true
  implies_iff : ∀ implied, report.Implies implied ↔ implied = answer

namespace Matcher

/-- A matcher hits what the rule of one of its patterns hits. -/
theorem Compiled.hits_iff_pattern [Text.CharacterNames] {patterns : List (List Char)}
    {matcher : Matcher} (compiled : Compiled patterns matcher) (path : List Char) :
    matcher.hits path = true ↔ ∃ pattern ∈ patterns, Rule.Hits pattern path := by
  rw [← compiled.reach_pos_iff, compiled.lt_reach_iff]
  constructor
  · rintro ⟨pattern, listed, reaches⟩
    obtain ⟨regex, read⟩ := compiled.readable_pattern pattern listed
    exact ⟨pattern, listed, regex, read, (Rule.reach_pos_iff pattern path regex read).mp reaches⟩
  · rintro ⟨pattern, listed, regex, read, hit⟩
    exact ⟨pattern, listed, (Rule.reach_pos_iff pattern path regex read).mpr hit⟩

/-- A matcher that hits a path has a longest match in it. -/
theorem Compiled.exists_longestMatch [Text.CharacterNames] {patterns : List (List Char)}
    {matcher : Matcher} (compiled : Compiled patterns matcher) (path : List Char)
    (hit : matcher.hits path = true) :
    ∃ found, matcher.longestMatch path = some found := by
  have reaches := (compiled.reach_pos_iff path).mpr hit
  rw [← matchLength_longestMatch] at reaches
  cases longest : matcher.longestMatch path with
  | none =>
    rw [longest] at reaches
    exact absurd reaches (Nat.lt_irrefl 0)
  | some found => exact ⟨found, rfl⟩

end Matcher

namespace Ruleset

/-- A verdict is weighed, from two matches, or combined, from the hits alone. -/
theorem consult_cases [Text.CharacterNames] (rules : Ruleset) (lines : RuleLines)
    (ignoring : Matcher.Compiled lines.ignoring rules.ignoring)
    (reincluding : Matcher.Compiled lines.reincluding rules.reincluding) (query : Query)
    (path : List Char) :
    let verdict := rules.consult query path
    (verdict.acceptHit = true ∧ verdict.denyHit = true ∧ query ≠ .inspects ∧
      ∃ accept deny, verdict.acceptMatch = some accept ∧ verdict.denyMatch = some deny ∧
        verdict.result = query.ofLengths accept.length deny.length) ∨
    (¬(query ≠ .inspects ∧ verdict.acceptHit = true ∧ verdict.denyHit = true) ∧
      verdict.acceptMatch = none ∧ verdict.denyMatch = none ∧
      verdict.result = query.ofHits verdict.acceptHit verdict.denyHit) := by
  have weighs : query.weighsMatches = true ↔ query ≠ .inspects := by cases query <;> decide
  -- Two hits are not enough to weigh: each of the two matchers has to have a longest match as well.
  simp only [consult]
  split
  next weighed =>
    simp only [Bool.and_eq_true, weighs] at weighed
    obtain ⟨⟨acceptHit, denyHit⟩, weighed⟩ := weighed
    obtain ⟨accept, back⟩ := reincluding.exists_longestMatch _ acceptHit
    obtain ⟨deny, away⟩ := ignoring.exists_longestMatch _ denyHit
    refine .inl ⟨acceptHit, denyHit, weighed, accept, deny, back, away, ?_⟩
    rw [back, away]
    rfl
  next combined =>
    simp only [Bool.and_eq_true, weighs] at combined
    refine .inr ⟨?_, rfl, rfl, rfl⟩
    rintro ⟨weighed, hits⟩
    exact combined ⟨hits, weighed⟩

/-- The hits of a verdict are those of the two matchers on the normalized path. -/
theorem consult_hits (rules : Ruleset) (query : Query) (path : List Char) :
    (rules.consult query path).query = query ∧
      (rules.consult query path).path = normalizePath path ∧
      (rules.consult query path).acceptHit = rules.reincluding.hits (normalizePath path) ∧
      (rules.consult query path).denyHit = rules.ignoring.hits (normalizePath path) := by
  simp only [consult]
  split
  · exact ⟨rfl, rfl, rfl, rfl⟩
  · exact ⟨rfl, rfl, rfl, rfl⟩

/-- A report on a verdict explains it. -/
theorem explains_reportOn [Text.CharacterNames] (rules : Ruleset) (lines : RuleLines)
    (ignoring : Matcher.Compiled lines.ignoring rules.ignoring)
    (reincluding : Matcher.Compiled lines.reincluding rules.reincluding) (query : Query)
    (path : List Char) (wanted : Bool) :
    (rules.reportOn (rules.consult query path) wanted).Explains lines query path wanted
      (rules.consult query path).result := by
  obtain ⟨asked, normal, acceptHit, denyHit⟩ := consult_hits rules query path
  have named : (rules.reportOn (rules.consult query path) wanted).query = query.name :=
    congrArg Query.name asked
  have combine : (rules.reportOn (rules.consult query path) wanted).combine = query.formula :=
    congrArg Query.formula asked
  have hitsBack := reincluding.hits_iff_pattern (normalizePath path)
  have hitsAway := ignoring.hits_iff_pattern (normalizePath path)
  rw [← acceptHit, ← normal] at hitsBack
  rw [← denyHit, ← normal] at hitsAway
  rcases consult_cases rules lines ignoring reincluding query path with
    ⟨back, away, weighed, accept, deny, longest, longestToo, result⟩ |
    ⟨combined, longest, longestToo, result⟩
  · have present : query ≠ .inspects ∧ (rules.consult query path).acceptHit = true ∧
        (rules.consult query path).denyHit = true := ⟨weighed, back, away⟩
    refine ⟨named, normal, rfl, rfl, hitsBack, hitsAway, ?_, ?_, ?_⟩
    · exact iff_of_true (Option.isSome_iff_exists.mpr ⟨accept, longest⟩) present
    · exact iff_of_true (Option.isSome_iff_exists.mpr ⟨deny, longestToo⟩) present
    · rw [result]
      exact MismatchReport.implies_of_matches _ query weighed named accept deny longest longestToo
  · refine ⟨named, normal, rfl, rfl, hitsBack, hitsAway, ?_, ?_, ?_⟩
    · exact iff_of_false (Option.not_isSome_iff_eq_none.mpr longest) combined
    · exact iff_of_false (Option.not_isSome_iff_eq_none.mpr longestToo) combined
    · rw [result]
      exact MismatchReport.implies_of_formula _ query combine longest longestToo

/-- An answer of rules that compile does not depend on what was expected. A report is made where it
is not what was expected, and nowhere else, and the report explains the answer. -/
theorem ask_explained [Text.CharacterNames] (content path : List Char) (query : Query)
    (expected : Option Bool) :
    Unreadable content ∨ ∃ rules, ofContent content = .ok rules ∧
      let answer := (rules.ask query path none).1
      (rules.ask query path expected).1 = answer ∧
      ((rules.ask query path expected).2.isSome = true ↔
        ∃ wanted, expected = some wanted ∧ wanted ≠ answer) ∧
      ∀ report, (rules.ask query path expected).2 = some report → ∃ wanted,
        expected = some wanted ∧
          report.Explains (RuleLines.ofContent content) query path wanted answer := by
  refine (ofContent_cases content).imp_right ?_
  rintro ⟨rules, returned, ignoring, reincluding⟩
  refine ⟨rules, returned, ?_⟩
  cases expected with
  | none => simp [ask]
  | some wanted =>
    have explains := explains_reportOn rules _ ignoring reincluding query path wanted
    by_cases met : wanted = (rules.consult query path).result
    · simp [ask, met]
    · simpa [ask, met] using explains

/-- Of `foo` and `!foo` both match all of the path `foo`. It is kept, and whoever expects it to be
ignored gets a report that says so. -/
theorem ask_explained_tie :
    ∃ rules report, ofContent "foo\n!foo".toList = .ok rules ∧
      rules.ask .accepts "foo".toList (some false) = (true, some report) ∧
      report.Explains ⟨["foo".toList], ["foo".toList]⟩ .accepts "foo".toList false true := by
  obtain ⟨known, compiled, kept⟩ : ∃ rules, ofContent "foo\n!foo".toList = .ok rules ∧
      rules.accepts "foo".toList = true := ok_of_view (by decide +kernel)
  obtain ⟨rules, returned, same, reported, explained⟩ :=
    (ask_explained "foo\n!foo".toList "foo".toList .accepts (some false)).resolve_left
      (not_unreadable compiled)
  obtain rfl : rules = known := Except.ok.inj (returned.symm.trans compiled)
  have answer : (rules.ask .accepts "foo".toList none).1 = true := kept
  rw [answer] at same reported explained
  obtain ⟨report, made⟩ := Option.isSome_iff_exists.mp (reported.mpr ⟨false, rfl, by decide⟩)
  obtain ⟨wanted, given, explains⟩ := explained report made
  obtain rfl := Option.some.inj given
  exact ⟨rules, report, returned, Prod.ext same made, explains⟩

end Ruleset
end IgnoreRules
