import IgnoreRules.Proofs.Pattern.Hits
import IgnoreRules.Proofs.Ruleset.Compilation

/-!
# The longest match decides

A verdict is computed from the merged expressions where one of them suffices, and from the matches
of the single rules otherwise. Both ways it is the comparison of two numbers: how far the rules of
each kind reach, where a rule that does not match reaches no distance. The two ways agree because
the merged expression hits what some rule hits, and because no rule matches the empty text.
-/

namespace IgnoreRules

/-- The length of the leftmost match of a rule, and zero if there is none. -/
def ReadRule.reach (entry : ReadRule) (path : List Char) : Nat :=
  match entry.regex.search path with
  | some hit => hit.text.length
  | none => 0

/-- The length of the leftmost match of a compiled pattern, and zero if there is none. -/
def Rule.reach [Text.CharacterNames] (pattern path : List Char) : Nat :=
  match Regex.read (Rule.compile pattern).source with
  | .ok regex => ReadRule.reach ⟨Rule.compile pattern, regex⟩ path
  | .error _ => 0

/-- The length of the longest among the leftmost matches of the single rules. -/
def Matcher.reach (matcher : Matcher) (path : List Char) : Nat :=
  (matcher.rules.map (·.reach path)).foldr max 0

/-- A rule that hits a path reaches somewhere. -/
theorem Rule.reach_pos_iff [Text.CharacterNames] (pattern path : List Char) (regex : Regex)
    (read : (Rule.compile pattern).regex = .ok regex) :
    0 < Rule.reach pattern path ↔ regex.hits path = true := by
  rw [Rule.regex] at read
  simp only [Rule.reach, read, ReadRule.reach, Regex.hits]
  cases found : regex.search path with
  | none => simp
  | some hit =>
    obtain ⟨_, _, _, _, matched⟩ := Regex.search_sound regex path hit found
    -- A match of length zero would count as no match, but rules have none.
    have some := Rule.compile_nonempty pattern regex read _ _ _ matched
    simpa using List.length_pos_iff.mpr some

theorem ReadRule.matchLength_leftmost? (entry : ReadRule) (path : List Char) :
    matchLength (entry.leftmost? path) = entry.reach path := by
  unfold ReadRule.leftmost? ReadRule.reach
  cases entry.regex.search path with
  | none => rfl
  | some hit =>
    by_cases empty : hit.text = []
    · simp [empty, matchLength]
    · simp [empty, matchLength, RuleMatch.length]

namespace Matcher

theorem matchLength_longer (best later : Option RuleMatch) :
    matchLength (longer best later) = max (matchLength best) (matchLength later) := by
  cases best with
  | none => simp [longer, matchLength]
  | some best =>
    cases later with
    | none => simp [longer, matchLength]
    | some later =>
      by_cases shorter : best.length < later.length
      · simp only [longer, if_pos shorter, matchLength]
        omega
      · simp only [longer, if_neg shorter, matchLength]
        omega

/-- The longest match is as long as the rules reach. -/
theorem matchLength_longestMatch (matcher : Matcher) (path : List Char) :
    matchLength (matcher.longestMatch path) = matcher.reach path := by
  have folded (rules : List ReadRule) (best : Option RuleMatch) :
      matchLength (rules.foldl (fun best entry => longer best (entry.leftmost? path)) best) =
        max (matchLength best) ((rules.map (·.reach path)).foldr max 0) := by
    induction rules generalizing best with
    | nil => simp
    | cons entry rules ih =>
      rw [List.foldl_cons, ih, matchLength_longer, ReadRule.matchLength_leftmost?, List.map_cons,
        List.foldr_cons, Nat.max_assoc]
  rw [longestMatch, folded, reach]
  simp [matchLength]

/-- Without rules nothing is reached. -/
theorem reach_of_empty (matcher : Matcher) (empty : matcher.rules = []) (path : List Char) :
    matcher.reach path = 0 := by
  rw [reach, empty]
  rfl

/-- Rules reach further than some distance exactly if one of them does. -/
theorem lt_reach_iff (matcher : Matcher) (path : List Char) (distance : Nat) :
    distance < matcher.reach path ↔ ∃ entry ∈ matcher.rules, distance < entry.reach path := by
  rw [reach]
  induction matcher.rules with
  | nil => simp
  | cons entry rules ih =>
    have either : distance < max (entry.reach path) ((rules.map (·.reach path)).foldr max 0) ↔
        distance < entry.reach path ∨ distance < (rules.map (·.reach path)).foldr max 0 := by
      omega
    simp only [List.map_cons, List.foldr_cons, List.mem_cons, exists_eq_or_imp]
    rw [either, ih]

theorem Compiled.reach_eq [Text.CharacterNames] {patterns : List (List Char)} {matcher : Matcher}
    (compiled : Compiled patterns matcher) (entry : ReadRule) (member : entry ∈ matcher.rules)
    (pattern : List Char) (same : entry.rule = Rule.compile pattern) (path : List Char) :
    entry.reach path = Rule.reach pattern path := by
  have read := compiled.readable entry member
  rw [same] at read
  simp only [Rule.reach, read, ReadRule.reach]

/-- How far a matcher reaches depends on its patterns alone, not on their order or number. -/
theorem Compiled.lt_reach_iff [Text.CharacterNames] {patterns : List (List Char)}
    {matcher : Matcher} (compiled : Compiled patterns matcher) (path : List Char) (distance : Nat) :
    distance < matcher.reach path ↔ ∃ pattern ∈ patterns, distance < Rule.reach pattern path := by
  rw [Matcher.lt_reach_iff]
  constructor
  · rintro ⟨entry, member, further⟩
    obtain ⟨pattern, listed, same⟩ := compiled.exists_pattern entry member
    exact ⟨pattern, listed, compiled.reach_eq entry member pattern same path ▸ further⟩
  · rintro ⟨pattern, listed, further⟩
    obtain ⟨entry, member, same⟩ := compiled.exists_entry pattern listed
    exact ⟨entry, member, compiled.reach_eq entry member pattern same path ▸ further⟩

theorem Compiled.reach_entry [Text.CharacterNames] {patterns : List (List Char)} {matcher : Matcher}
    (compiled : Compiled patterns matcher) (entry : ReadRule) (member : entry ∈ matcher.rules)
    (path : List Char) : 0 < entry.reach path ↔ entry.regex.hits path = true := by
  obtain ⟨pattern, _, same⟩ := compiled.exists_pattern entry member
  have read := compiled.readable entry member
  rw [same] at read
  rw [compiled.reach_eq entry member pattern same, Rule.reach_pos_iff pattern path _ read]

theorem Compiled.reach_pos_iff [Text.CharacterNames] {patterns : List (List Char)}
    {matcher : Matcher} (compiled : Compiled patterns matcher) (path : List Char) :
    0 < matcher.reach path ↔ matcher.hits path = true := by
  rw [Matcher.lt_reach_iff, compiled.hits_iff]
  constructor
  · rintro ⟨entry, member, reaches⟩
    exact ⟨entry, member, (compiled.reach_entry entry member path).mp reaches⟩
  · rintro ⟨entry, member, hit⟩
    exact ⟨entry, member, (compiled.reach_entry entry member path).mpr hit⟩

end Matcher

namespace Ruleset

/-- Compiled rules answer by how far the rules of each kind reach. -/
theorem consult_result [Text.CharacterNames] (rules : Ruleset)
    (ignored reincluded : List (List Char)) (ignoring : Matcher.Compiled ignored rules.ignoring)
    (reincluding : Matcher.Compiled reincluded rules.reincluding) (path : List Char) :
    let away := rules.ignoring.reach (normalizePath path)
    let back := rules.reincluding.reach (normalizePath path)
    rules.accepts path = decide (away ≤ back) ∧ rules.denies path = decide (back < away) ∧
      rules.inspects path = decide (0 < back ∨ 0 < away) := by
  intro away back
  have hitBack : rules.reincluding.hits (normalizePath path) = decide (0 < back) :=
    Bool.eq_iff_iff.mpr (by simpa using (reincluding.reach_pos_iff _).symm)
  have hitAway : rules.ignoring.hits (normalizePath path) = decide (0 < away) :=
    Bool.eq_iff_iff.mpr (by simpa using (ignoring.reach_pos_iff _).symm)
  -- Without a hit of one kind its reach is zero, and the hits alone give the same comparison.
  refine ⟨?_, ?_, ?_⟩
  · simp only [accepts, consult, hitBack, hitAway, Query.weighsMatches, Bool.and_true,
      Matcher.matchLength_longestMatch, Query.ofLengths, Query.ofHits]
    split
    · rfl
    next alone =>
      simp only [Bool.and_eq_true, decide_eq_true_eq, not_and] at alone
      rw [Bool.eq_iff_iff]
      simp only [Bool.or_eq_true, decide_eq_true_eq, Bool.not_eq_true', decide_eq_false_iff_not]
      omega
  · simp only [denies, consult, hitBack, hitAway, Query.weighsMatches, Bool.and_true,
      Matcher.matchLength_longestMatch, Query.ofLengths, Query.ofHits]
    split
    · rfl
    next alone =>
      simp only [Bool.and_eq_true, decide_eq_true_eq, not_and] at alone
      rw [Bool.eq_iff_iff]
      simp only [Bool.and_eq_true, decide_eq_true_eq, Bool.not_eq_true', decide_eq_false_iff_not]
      omega
  · simp only [inspects, consult, hitBack, hitAway, Query.weighsMatches, Bool.and_false,
      Bool.false_eq_true, if_false, Query.ofHits]
    rw [Bool.eq_iff_iff]
    simp

/-- Rule sets of which the rules of each kind reach equally far on a path answer the same. -/
theorem consult_congr [Text.CharacterNames] (rules others : Ruleset) (lines otherLines : RuleLines)
    (ignoring : Matcher.Compiled lines.ignoring rules.ignoring)
    (reincluding : Matcher.Compiled lines.reincluding rules.reincluding)
    (ignoringToo : Matcher.Compiled otherLines.ignoring others.ignoring)
    (reincludingToo : Matcher.Compiled otherLines.reincluding others.reincluding)
    (path : List Char)
    (away : rules.ignoring.reach (normalizePath path) =
      others.ignoring.reach (normalizePath path))
    (back : rules.reincluding.reach (normalizePath path) =
      others.reincluding.reach (normalizePath path)) (query : Query) :
    (rules.consult query path).result = (others.consult query path).result := by
  obtain ⟨accepts, denies, inspects⟩ := consult_result rules _ _ ignoring reincluding path
  obtain ⟨acceptsToo, deniesToo, inspectsToo⟩ :=
    consult_result others _ _ ignoringToo reincludingToo path
  cases query with
  | accepts => exact accepts.trans (by rw [away, back, ← acceptsToo]; rfl)
  | denies => exact denies.trans (by rw [away, back, ← deniesToo]; rfl)
  | inspects => exact inspects.trans (by rw [away, back, ← inspectsToo]; rfl)

/-- A path is ignored if some ignored pattern reaches further on it than every re-included one. -/
theorem denies_iff [Text.CharacterNames] (rules : Ruleset) (ignored reincluded : List (List Char))
    (ignoring : Matcher.Compiled ignored rules.ignoring)
    (reincluding : Matcher.Compiled reincluded rules.reincluding) (path : List Char) :
    rules.denies path = true ↔ ∃ pattern ∈ ignored,
      0 < Rule.reach pattern (normalizePath path) ∧ ∀ other ∈ reincluded,
        Rule.reach other (normalizePath path) < Rule.reach pattern (normalizePath path) := by
  rw [(consult_result rules _ _ ignoring reincluding path).2.1, decide_eq_true_eq,
    ignoring.lt_reach_iff]
  constructor
  · rintro ⟨pattern, listed, further⟩
    -- The kind reaches as far as its furthest pattern, so no pattern of it reaches further.
    refine ⟨pattern, listed, by omega, fun other present => ?_⟩
    by_cases beyond : Rule.reach other (normalizePath path) < Rule.reach pattern (normalizePath path)
    · exact beyond
    · have reaches := (reincluding.lt_reach_iff (normalizePath path)
        (Rule.reach other (normalizePath path) - 1)).mpr ⟨other, present, by omega⟩
      omega
  · rintro ⟨pattern, listed, reaches, further⟩
    refine ⟨pattern, listed, ?_⟩
    by_cases beyond : rules.reincluding.reach (normalizePath path) <
        Rule.reach pattern (normalizePath path)
    · exact beyond
    · obtain ⟨other, present, longer⟩ := (reincluding.lt_reach_iff (normalizePath path)
        (Rule.reach pattern (normalizePath path) - 1)).mp (by omega)
      have shorter := further other present
      omega

/-- The verdicts of a rule text that compiles are those of the longest match, on every path. The
merged expressions only ever save the work of measuring. -/
theorem verdicts_by_longest_match [Text.CharacterNames] (content : List Char) :
    Unreadable content ∨ ∃ rules, ofContent content = .ok rules ∧
      Matcher.Compiled (RuleLines.ofContent content).ignoring rules.ignoring ∧
      Matcher.Compiled (RuleLines.ofContent content).reincluding rules.reincluding ∧ ∀ path,
      let away := rules.ignoring.reach (normalizePath path)
      let back := rules.reincluding.reach (normalizePath path)
      (rules.accepts path = true ↔ away ≤ back) ∧
      (rules.denies path = true ↔ back < away) ∧
      (rules.inspects path = true ↔ 0 < back ∨ 0 < away) ∧
      rules.accepts path = !rules.denies path ∧
      (rules.inspects path = false → rules.accepts path = true) ∧
      ∀ matcher ∈ [rules.ignoring, rules.reincluding],
        (matcher.hits (normalizePath path) = true ↔
          ∃ entry ∈ matcher.rules, entry.regex.hits (normalizePath path) = true) ∧
        (matcher.hits (normalizePath path) = true →
          ∃ found, matcher.longestMatch (normalizePath path) = some found ∧ 0 < found.length) := by
  refine (ofContent_cases content).imp_right ?_
  rintro ⟨rules, returned, ignoring, reincluding⟩
  refine ⟨rules, returned, ignoring, reincluding, fun path => ?_⟩
  obtain ⟨accepts, denies, inspects⟩ :=
    consult_result rules _ _ ignoring reincluding path
  have longest (patterns : List (List Char)) (matcher : Matcher)
      (compiled : Matcher.Compiled patterns matcher)
      (hit : matcher.hits (normalizePath path) = true) :
      ∃ found, matcher.longestMatch (normalizePath path) = some found ∧ 0 < found.length := by
    -- The search for the longest match starts from none, which has length zero.
    have reaches := (compiled.reach_pos_iff _).mpr hit
    rw [← Matcher.matchLength_longestMatch] at reaches
    cases found : matcher.longestMatch (normalizePath path) with
    | none => simp [found, matchLength] at reaches
    | some found' => exact ⟨found', rfl, by simpa [found, matchLength] using reaches⟩
  refine ⟨by simp [accepts], by simp [denies], by simp [inspects], ?_, ?_, ?_⟩
  · rw [accepts, denies, Bool.eq_iff_iff]
    simp
  · rw [accepts, inspects]
    simp only [decide_eq_false_iff_not, decide_eq_true_eq]
    omega
  · simp only [List.mem_cons, List.not_mem_nil, or_false, forall_eq_or_imp, forall_eq]
    exact ⟨⟨ignoring.hits_iff _, longest _ _ ignoring⟩,
      ⟨reincluding.hits_iff _, longest _ _ reincluding⟩⟩

end Ruleset
end IgnoreRules
