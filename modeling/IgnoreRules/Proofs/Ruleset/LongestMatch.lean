import IgnoreRules.Proofs.Ruleset.Layout
import Mathlib.Data.List.Induction

/-!
# The first of the longest matches

The longest match of a matcher is found in one pass over its rules, in which a match gives way to a
longer one only. So it is the match of the first rule among those that match as much as any other
rule does. The rules stand in the order of their patterns, and of a pattern that is given twice both
rules match the same, so that the pattern alone tells which match is meant.
-/

namespace IgnoreRules

/-- What the rule of a pattern finds in a path: its leftmost match. -/
def Rule.Finds [Text.CharacterNames] (pattern path : List Char) (hit : Regex.Hit) : Prop :=
  ∃ regex, (compile pattern).regex = .ok regex ∧ regex.search path = some hit

namespace Matcher

/-- A match that the first rule has among those with the longest leftmost matches. -/
structure FirstLongest [Text.CharacterNames] (patterns : List (List Char)) (path : List Char)
    (found : RuleMatch) :
    Prop where
  listed : found.pattern ∈ patterns
  leftmost : Rule.Finds found.pattern path ⟨found.start, found.text⟩
  longest : ∀ other ∈ patterns, ∀ hit, Rule.Finds other path hit →
    hit.text.length ≤ found.length
  first : ∀ other ∈ patterns, ∀ hit, Rule.Finds other path hit →
    hit.text.length = found.length → Text.precedes found.pattern other = true

/-- The match that some rules lead to, one after the other: none if no rule reaches anywhere, and
otherwise that of a rule which those in front of it do not reach and those behind it do not pass. -/
inductive Leads (path : List Char) (rules : List ReadRule) : Option RuleMatch → Prop
  | nowhere (silent : ∀ entry ∈ rules, entry.reach path = 0) : Leads path rules none
  | somewhere {before after : List ReadRule} {entry : ReadRule} {found : RuleMatch}
      (split : rules = before ++ entry :: after) (matched : entry.leftmost? path = some found)
      (shorter : ∀ other ∈ before, other.reach path < found.length)
      (bounded : ∀ other ∈ after, other.reach path ≤ found.length) :
      Leads path rules (some found)

end Matcher

/-! ## Single rules -/

@[simp]
theorem Rule.pattern_compile [Text.CharacterNames] (pattern : List Char) :
    (compile pattern).pattern = pattern := by
  unfold compile
  split <;> rfl

theorem Rule.Finds.unique [Text.CharacterNames] {pattern path : List Char} {hit other : Regex.Hit}
    (finds : Finds pattern path hit) (findsToo : Finds pattern path other) : hit = other := by
  obtain ⟨regex, read, found⟩ := finds
  obtain ⟨_, readToo, foundToo⟩ := findsToo
  obtain rfl := Except.ok.inj (read.symm.trans readToo)
  exact Option.some.inj (found.symm.trans foundToo)

/-- What a rule finds is a stretch of the path, and not an empty one. -/
theorem Rule.Finds.slice [Text.CharacterNames] {pattern path : List Char} {hit : Regex.Hit}
    (finds : Finds pattern path hit) :
    (path.drop hit.start).take hit.text.length = hit.text ∧
      hit.start + hit.text.length ≤ path.length ∧ hit.text ≠ [] := by
  obtain ⟨regex, read, found⟩ := finds
  obtain ⟨before, after, rfl, start, matched⟩ := Regex.search_sound regex path hit found
  refine ⟨?_, ?_, compile_nonempty pattern regex read _ _ _ matched⟩
  · simp [start, List.append_assoc]
  · simp only [start, List.length_append]
    omega

/-- Nothing that the rule matches begins in front of what it finds. -/
theorem Rule.Finds.leftmost [Text.CharacterNames] {pattern path : List Char} {hit : Regex.Hit}
    (finds : Finds pattern path hit) (regex : Regex) (read : (compile pattern).regex = .ok regex)
    (before text after : List Char) (split : path = before ++ text ++ after)
    (matched : regex.Matches before.length text after) : hit.start ≤ before.length := by
  obtain ⟨_, readToo, found⟩ := finds
  obtain rfl := Except.ok.inj (read.symm.trans readToo)
  rw [split] at found
  exact regex.search_leftmost hit before text after found matched

theorem Rule.reach_of_finds [Text.CharacterNames] {pattern path : List Char} {hit : Regex.Hit}
    (finds : Finds pattern path hit) : reach pattern path = hit.text.length := by
  obtain ⟨regex, read, found⟩ := finds
  rw [Rule.regex] at read
  simp only [reach, read, ReadRule.reach, found]

theorem ReadRule.reach_of_leftmost? {entry : ReadRule} {path : List Char} {found : RuleMatch}
    (matched : entry.leftmost? path = some found) : entry.reach path = found.length := by
  rw [← entry.matchLength_leftmost? path, matched, matchLength]

theorem ReadRule.reach_of_none {entry : ReadRule} {path : List Char}
    (none : entry.leftmost? path = none) : entry.reach path = 0 := by
  rw [← entry.matchLength_leftmost? path, none, matchLength]

theorem ReadRule.leftmost?_eq_some_iff (entry : ReadRule) (path : List Char) (found : RuleMatch) :
    entry.leftmost? path = some found ↔ found.pattern = entry.rule.pattern ∧
      entry.regex.search path = some ⟨found.start, found.text⟩ ∧ found.text ≠ [] := by
  obtain ⟨pattern, start, text⟩ := found
  unfold leftmost?
  cases entry.regex.search path with
  | none => simp
  | some hit =>
    obtain ⟨begins, taken⟩ := hit
    by_cases empty : taken = []
    · simp only [empty, if_true, reduceCtorEq, Option.some.injEq, Regex.Hit.mk.injEq, false_iff]
      rintro ⟨_, ⟨_, rfl⟩, filled⟩
      exact filled rfl
    · simp only [if_neg empty, Option.some.injEq, RuleMatch.mk.injEq, Regex.Hit.mk.injEq]
      constructor
      · rintro ⟨rfl, rfl, rfl⟩
        exact ⟨rfl, ⟨rfl, rfl⟩, empty⟩
      · rintro ⟨rfl, ⟨rfl, rfl⟩, _⟩
        exact ⟨rfl, rfl, rfl⟩

namespace Matcher

/-! ## The pass over the rules -/

/-- One more rule at the end takes over if it matches more. -/
theorem Leads.concat {path : List Char} {rules : List ReadRule} {best : Option RuleMatch}
    (leads : Leads path rules best) (entry : ReadRule) :
    Leads path (rules ++ [entry]) (longer best (entry.leftmost? path)) := by
  cases later : entry.leftmost? path with
  | none =>
    have idle := ReadRule.reach_of_none later
    cases leads with
    | nowhere silent =>
      refine .nowhere fun other member => ?_
      rcases List.mem_append.mp member with earlier | last
      · exact silent other earlier
      · rwa [List.mem_singleton.mp last]
    | somewhere split matched shorter bounded =>
      refine .somewhere (by rw [split, List.append_assoc, List.cons_append]) matched shorter
        fun other member => ?_
      rcases List.mem_append.mp member with behind | last
      · exact bounded other behind
      · rw [List.mem_singleton.mp last, idle]
        exact Nat.zero_le _
  | some new =>
    cases leads with
    | nowhere silent =>
      have filled := ((entry.leftmost?_eq_some_iff path new).mp later).2.2
      refine .somewhere rfl later (fun other member => ?_) (by simp)
      rw [silent other member]
      exact List.length_pos_iff.mpr filled
    | @somewhere before after leader found split matched shorter bounded =>
      by_cases beaten : found.length < new.length
      · rw [longer, if_pos beaten]
        refine .somewhere rfl later (fun other member => ?_) (by simp)
        rw [split] at member
        rcases List.mem_append.mp member with earlier | member
        · exact (shorter other earlier).trans beaten
        · rcases List.mem_cons.mp member with rfl | behind
          · rwa [ReadRule.reach_of_leftmost? matched]
          · exact (bounded other behind).trans_lt beaten
      · rw [longer, if_neg beaten]
        refine .somewhere (by rw [split, List.append_assoc, List.cons_append]) matched shorter
          fun other member => ?_
        rcases List.mem_append.mp member with behind | last
        · exact bounded other behind
        · rw [List.mem_singleton.mp last, ReadRule.reach_of_leftmost? later]
          exact Nat.le_of_not_lt beaten

/-- The rules lead to the longest match. -/
theorem leads_longestMatch [Text.CharacterNames] (matcher : Matcher) (path : List Char) :
    Leads path matcher.rules (matcher.longestMatch path) := by
  unfold longestMatch
  -- A fold from the left takes the last rule at the end.
  induction matcher.rules using List.reverseRecOn with
  | nil => exact .nowhere (by simp)
  | append_singleton rules entry ih =>
    rw [List.foldl_append]
    exact ih.concat entry

/-! ## The patterns of the rules -/

section
variable [Text.CharacterNames] {patterns : List (List Char)} {matcher : Matcher}
  (compiled : Compiled patterns matcher)
include compiled

theorem Compiled.pattern_mem {entry : ReadRule} (member : entry ∈ matcher.rules) :
    entry.rule = Rule.compile entry.rule.pattern ∧ entry.rule.pattern ∈ patterns := by
  obtain ⟨pattern, listed, same⟩ := compiled.exists_pattern entry member
  rw [same, Rule.pattern_compile]
  exact ⟨rfl, listed⟩

theorem Compiled.finds_iff {entry : ReadRule} (member : entry ∈ matcher.rules) (path : List Char)
    (hit : Regex.Hit) :
    Rule.Finds entry.rule.pattern path hit ↔ entry.regex.search path = some hit := by
  have read := compiled.readable entry member
  rw [(compiled.pattern_mem member).1] at read
  constructor
  · rintro ⟨regex, readToo, found⟩
    obtain rfl := Except.ok.inj (read.symm.trans readToo)
    exact found
  · intro found
    exact ⟨entry.regex, read, found⟩

theorem Compiled.rules_sorted :
    matcher.rules.Pairwise (Text.precedes ·.rule.pattern ·.rule.pattern = true) := by
  have patternsOf : matcher.rules.map (·.rule.pattern) = sortPatterns patterns := by
    have names := congrArg (List.map Rule.pattern) compiled.rules
    simpa [Function.comp_def] using names
  have sorted := sortPatterns_sorted patterns
  rwa [← patternsOf, List.pairwise_map] at sorted

/-- What the rules lead to is the first among the longest matches of their patterns. -/
theorem Compiled.firstLongest_of_leads {path : List Char} {found : RuleMatch}
    (leads : Leads path matcher.rules (some found)) : FirstLongest patterns path found := by
  cases leads with
  | @somewhere before after entry _ split matched shorter bounded =>
    have member : entry ∈ matcher.rules := by simp [split]
    obtain ⟨named, search, _⟩ := (entry.leftmost?_eq_some_iff path found).mp matched
    have reached := ReadRule.reach_of_leftmost? matched
    -- Where another pattern finds something, a rule of it stands in one of three places.
    have place (other : List Char) (listed : other ∈ patterns) (hit : Regex.Hit)
        (finds : Rule.Finds other path hit) :
        hit.text.length < found.length ∨
          hit.text.length ≤ found.length ∧ Text.precedes found.pattern other = true := by
      obtain ⟨rival, present, same⟩ := compiled.exists_entry other listed
      have known := compiled.reach_eq rival present other same path
      rw [Rule.reach_of_finds finds] at known
      have pattern : rival.rule.pattern = other := by rw [same, Rule.pattern_compile]
      have sorted := compiled.rules_sorted
      rw [split, List.pairwise_append, List.pairwise_cons] at sorted
      rw [split] at present
      rw [← known, named, ← pattern]
      rcases List.mem_append.mp present with earlier | rest
      · exact .inl (shorter rival earlier)
      · rcases List.mem_cons.mp rest with rfl | behind
        · have itself := Text.precedes_total rival.rule.pattern rival.rule.pattern
          rw [Bool.or_self] at itself
          exact .inr ⟨reached.le, itself⟩
        · exact .inr ⟨bounded rival behind, sorted.2.1.1 rival behind⟩
    refine ⟨named ▸ (compiled.pattern_mem member).2, ?_, ?_, ?_⟩
    · rw [named]
      exact (compiled.finds_iff member path _).mpr search
    · intro other listed hit finds
      rcases place other listed hit finds with less | ⟨atMost, _⟩
      · exact less.le
      · exact atMost
    · intro other listed hit finds same
      rcases place other listed hit finds with less | ⟨_, ordered⟩
      · exact absurd same less.ne
      · exact ordered

end

theorem FirstLongest.unique [Text.CharacterNames] {patterns : List (List Char)} {path : List Char}
    {found other : RuleMatch} (wins : FirstLongest patterns path found)
    (winsToo : FirstLongest patterns path other) : found = other := by
  have longer := winsToo.longest _ wins.listed _ wins.leftmost
  have longerToo := wins.longest _ winsToo.listed _ winsToo.leftmost
  have same : found.length = other.length := Nat.le_antisymm longer longerToo
  have pattern : found.pattern = other.pattern :=
    Text.precedes_antisymm _ _ (wins.first _ winsToo.listed _ winsToo.leftmost same.symm)
      (winsToo.first _ wins.listed _ wins.leftmost same)
  have hit := wins.leftmost.unique (pattern ▸ winsToo.leftmost)
  obtain ⟨start, text⟩ := Regex.Hit.mk.inj hit
  cases found
  cases other
  rw [RuleMatch.mk.injEq]
  exact ⟨pattern, start, text⟩

/-- Patterns of which no rule finds anything have no longest match. All others have one, the
leftmost match of the rule that comes first in the order of the patterns among those whose leftmost
match is the longest. It is the stretch of the path that it says it is, and no stretch that begins
in front of it is matched by its rule. Patterns of which one has no expression have no matcher. -/
theorem longestMatch_first [Text.CharacterNames] (patterns : List (List Char)) (path : List Char) :
    Unreadable patterns ∨ ∃ matcher, ofPatterns patterns = .ok matcher ∧
      (matcher.longestMatch path = none ↔
        ∀ pattern ∈ patterns, ∀ hit, ¬Rule.Finds pattern path hit) ∧
      (∀ found, matcher.longestMatch path = some found ↔ FirstLongest patterns path found) ∧
      ∀ found, matcher.longestMatch path = some found →
        ((path.drop found.start).take found.length = found.text ∧
          found.start + found.length ≤ path.length ∧ 0 < found.length) ∧
        ∀ regex, (Rule.compile found.pattern).regex = .ok regex → ∀ before text after,
          path = before ++ text ++ after → regex.Matches before.length text after →
            found.start ≤ before.length := by
  refine (ofPatterns_cases patterns).imp_right ?_
  rintro ⟨matcher, returned, compiled⟩
  have leads := leads_longestMatch matcher path
  have wins (found : RuleMatch) (longest : matcher.longestMatch path = some found) :
      FirstLongest patterns path found :=
    compiled.firstLongest_of_leads (longest ▸ leads)
  have none_iff : matcher.longestMatch path = none ↔
      ∀ pattern ∈ patterns, ∀ hit, ¬Rule.Finds pattern path hit := by
    constructor
    · intro none pattern listed hit finds
      rw [none] at leads
      cases leads with
      | nowhere silent =>
        obtain ⟨entry, member, same⟩ := compiled.exists_entry pattern listed
        have reach := compiled.reach_eq entry member pattern same path
        rw [silent entry member, Rule.reach_of_finds finds] at reach
        exact finds.slice.2.2 (List.length_eq_zero_iff.mp reach.symm)
    · intro silent
      cases longest : matcher.longestMatch path with
      | none => rfl
      | some found =>
        have won := wins found longest
        exact absurd won.leftmost (silent _ won.listed _)
  refine ⟨matcher, returned, none_iff, fun found => ⟨wins found, ?_⟩, fun found longest => ?_⟩
  · intro won
    cases longest : matcher.longestMatch path with
    | none => exact absurd won.leftmost (none_iff.mp longest _ won.listed _)
    | some other => rw [(wins other longest).unique won]
  · have finds := (wins found longest).leftmost
    obtain ⟨slice, inside, filled⟩ := finds.slice
    exact ⟨⟨slice, inside, List.length_pos_iff.mpr filled⟩, finds.leftmost⟩

end Matcher
end IgnoreRules
