import IgnoreRules.Proofs.Pattern.Shape
import IgnoreRules.Proofs.Regex.Matching
import IgnoreRules.Ruleset.Verdict
import IgnoreRules.Text.AsciiNames

/-!
# What compiles

Rules that can be read compile together, whatever they are: what they compile to is again a source
that can be read, an alternative for each rule, with the expressions of the rules as its branches. A
pattern in which a character code is too large is the only one that has no rule, and no rule text
with such a pattern compiles.
-/

namespace IgnoreRules

namespace Matcher

section Compiling

variable [Text.CharacterNames]

/-- A matcher that holds the rules of some patterns, each beside what its source reads as, and the
sources of all of them merged beside what that reads as. -/
structure Compiled (patterns : List (List Char)) (matcher : Matcher) : Prop where
  rules : matcher.rules.map (·.rule) = (sortPatterns patterns).map Rule.compile
  readable : ∀ entry ∈ matcher.rules, Regex.read entry.rule.source = .ok entry.regex
  mergedSource : matcher.mergedSource = mergeSources (matcher.rules.map (·.rule.source))
  merged : Regex.read matcher.mergedSource = .ok matcher.merged

/-- Patterns that do not compile, because one of them has no expression. -/
structure Unreadable (patterns : List (List Char)) : Prop where
  broken : ofPatterns patterns = .error .codeTooLarge
  pattern : ∃ pattern ∈ patterns, Rule.Unreadable pattern

/-- Reading one rule after the other succeeds, or fails for a rule that has no expression. -/
private theorem mapM_readRule (patterns : List (List Char)) :
    (patterns.mapM readRule = .error .codeTooLarge ∧
      ∃ pattern ∈ patterns, Rule.Unreadable pattern) ∨
    ∃ rules, patterns.mapM readRule = .ok rules ∧
      rules.map (·.rule) = patterns.map Rule.compile ∧
      ∀ entry ∈ rules, Regex.read entry.rule.source = .ok entry.regex := by
  induction patterns with
  | nil => exact .inr ⟨[], rfl, rfl, by simp⟩
  | cons pattern patterns ih =>
    rw [List.mapM_cons]
    by_cases unreadable : Rule.Unreadable pattern
    · refine .inl ⟨?_, pattern, by simp, unreadable⟩
      rw [readRule, unreadable]
      rfl
    obtain ⟨regex, read⟩ := (Rule.readable_iff pattern).mpr unreadable
    have first : readRule pattern = .ok ⟨Rule.compile pattern, regex⟩ := by
      rw [readRule, read]
      rfl
    rcases ih with ⟨broken, other, member, without⟩ | ⟨rules, returned, compiled, readable⟩
    · refine .inl ⟨?_, other, by simp [member], without⟩
      rw [first, broken]
      rfl
    · refine .inr ⟨⟨Rule.compile pattern, regex⟩ :: rules, ?_, by simp [compiled], ?_⟩
      · rw [first, returned]
        rfl
      · intro entry member
        rcases List.mem_cons.mp member with rfl | member
        · exact read
        · exact readable entry member

/-- The merged source of readable rules reads as the choice among their expressions. -/
theorem read_mergeSources (rules : List ReadRule)
    (readable : ∀ entry ∈ rules, Regex.read entry.rule.source = .ok entry.regex) :
    Regex.read (mergeSources (rules.map (·.rule.source))) =
      .ok (.choice (rules.map (·.regex))) := by
  cases rules with
  | nil => rfl
  | cons entry rules =>
    have alternatives := Regex.read_alternatives
      ((entry :: rules).map fun entry => (entry.rule.source, entry.regex))
      (by simpa using readable) (by simp)
    simpa [mergeSources, Regex.grouped, Function.comp_def] using alternatives

/-- Patterns that all have an expression compile, and no others. -/
theorem ofPatterns_cases (patterns : List (List Char)) :
    Unreadable patterns ∨ ∃ matcher, ofPatterns patterns = .ok matcher ∧
      Compiled patterns matcher := by
  rcases mapM_readRule (sortPatterns patterns) with
    ⟨broken, pattern, member, unreadable⟩ | ⟨rules, returned, compiled, readable⟩
  · refine .inl ⟨?_, pattern, List.mem_mergeSort.mp member, unreadable⟩
    rw [ofPatterns, broken]
    rfl
  · have merged := read_mergeSources rules readable
    refine .inr ⟨⟨mergeSources (rules.map (·.rule.source)), _, rules⟩, ?_,
      compiled, readable, rfl, merged⟩
    rw [ofPatterns, returned]
    change (Regex.read (mergeSources (rules.map fun entry => entry.rule.source)) >>= _) = _
    rw [merged]
    rfl

/-- The rules of a matcher are the compiled patterns. -/
theorem Compiled.exists_pattern {patterns : List (List Char)} {matcher : Matcher}
    (compiled : Compiled patterns matcher) (entry : ReadRule) (member : entry ∈ matcher.rules) :
    ∃ pattern ∈ patterns, entry.rule = Rule.compile pattern := by
  have present : entry.rule ∈ (sortPatterns patterns).map Rule.compile := by
    rw [← compiled.rules]
    exact List.mem_map_of_mem member
  obtain ⟨pattern, listed, same⟩ := List.mem_map.mp present
  exact ⟨pattern, List.mem_mergeSort.mp listed, same.symm⟩

theorem Compiled.exists_entry {patterns : List (List Char)} {matcher : Matcher}
    (compiled : Compiled patterns matcher) (pattern : List Char) (listed : pattern ∈ patterns) :
    ∃ entry ∈ matcher.rules, entry.rule = Rule.compile pattern := by
  have present : Rule.compile pattern ∈ matcher.rules.map (·.rule) := by
    rw [compiled.rules]
    exact List.mem_map_of_mem (List.mem_mergeSort.mpr listed)
  exact List.mem_map.mp present

/-- Every pattern that is compiled has an expression. -/
theorem Compiled.readable_pattern {patterns : List (List Char)} {matcher : Matcher}
    (compiled : Compiled patterns matcher) (pattern : List Char) (listed : pattern ∈ patterns) :
    ∃ regex, (Rule.compile pattern).regex = .ok regex := by
  obtain ⟨entry, member, same⟩ := compiled.exists_entry pattern listed
  exact ⟨entry.regex, same ▸ compiled.readable entry member⟩

theorem Compiled.merged_eq {patterns : List (List Char)} {matcher : Matcher}
    (compiled : Compiled patterns matcher) :
    matcher.merged = .choice (matcher.rules.map (·.regex)) := by
  have read := compiled.merged
  rw [compiled.mergedSource, read_mergeSources _ compiled.readable] at read
  exact (Except.ok.inj read).symm

/-- The merged expression hits what one of the rules hits. -/
theorem Compiled.hits_iff {patterns : List (List Char)} {matcher : Matcher}
    (compiled : Compiled patterns matcher) (path : List Char) :
    matcher.hits path = true ↔ ∃ entry ∈ matcher.rules, entry.regex.hits path = true := by
  rw [hits, compiled.merged_eq, Regex.hits_choice]
  simp only [List.mem_map]
  constructor
  · rintro ⟨_, ⟨entry, member, rfl⟩, hit⟩
    exact ⟨entry, member, hit⟩
  · rintro ⟨entry, member, hit⟩
    exact ⟨_, ⟨entry, member, rfl⟩, hit⟩

end Compiling

end Matcher

namespace Ruleset

section Compiling

variable [Text.CharacterNames]

/-- A rule text that does not compile, because one of its patterns has no expression. -/
structure Unreadable (content : List Char) : Prop where
  broken : ofContent content = .error .codeTooLarge
  pattern : ∃ pattern ∈ (RuleLines.ofContent content).ignoring ++
    (RuleLines.ofContent content).reincluding, Rule.Unreadable pattern

/-- Rule texts of which every pattern has an expression compile, and no others. -/
theorem ofContent_cases (content : List Char) :
    Unreadable content ∨ ∃ rules, ofContent content = .ok rules ∧
      Matcher.Compiled (RuleLines.ofContent content).ignoring rules.ignoring ∧
      Matcher.Compiled (RuleLines.ofContent content).reincluding rules.reincluding := by
  rcases Matcher.ofPatterns_cases (RuleLines.ofContent content).ignoring with
    ⟨broken, pattern, member, unreadable⟩ | ⟨ignoring, first, compiled⟩
  · refine .inl ⟨?_, pattern, List.mem_append_left _ member, unreadable⟩
    simp only [ofContent, broken]
    rfl
  rcases Matcher.ofPatterns_cases (RuleLines.ofContent content).reincluding with
    ⟨broken, pattern, member, unreadable⟩ | ⟨reincluding, second, compiledToo⟩
  · refine .inl ⟨?_, pattern, List.mem_append_right _ member, unreadable⟩
    simp only [ofContent, first, broken]
    rfl
  · refine .inr ⟨⟨ignoring, reincluding⟩, ?_, compiled, compiledToo⟩
    simp only [ofContent, first, second]
    rfl

theorem not_unreadable {content : List Char} {rules : Ruleset}
    (returned : ofContent content = .ok rules) : ¬Unreadable content := by
  rintro ⟨broken, _⟩
  rw [returned] at broken
  cases broken

theorem unreadable_iff (content : List Char) :
    Unreadable content ↔ ∃ pattern ∈ (RuleLines.ofContent content).ignoring ++
      (RuleLines.ofContent content).reincluding, Rule.Unreadable pattern := by
  refine ⟨Unreadable.pattern, fun ⟨pattern, listed, unreadable⟩ => ?_⟩
  rcases ofContent_cases content with broken | ⟨rules, _, ignoring, reincluding⟩
  · exact broken
  · rcases List.mem_append.mp listed with listed | listed
    · exact absurd unreadable ((Rule.readable_iff pattern).mp (ignoring.readable_pattern _ listed))
    · exact absurd unreadable
        ((Rule.readable_iff pattern).mp (reincluding.readable_pattern _ listed))

theorem ofContent_compiled (content : List Char)
    (readable : ∀ pattern ∈ (RuleLines.ofContent content).ignoring ++
      (RuleLines.ofContent content).reincluding,
        ∃ regex, (Rule.compile pattern).regex = .ok regex) :
    ∃ rules, ofContent content = .ok rules ∧
      Matcher.Compiled (RuleLines.ofContent content).ignoring rules.ignoring ∧
      Matcher.Compiled (RuleLines.ofContent content).reincluding rules.reincluding :=
  (ofContent_cases content).resolve_left fun ⟨_, pattern, listed, unreadable⟩ =>
    (Rule.readable_iff pattern).mp (readable pattern listed) unreadable

/-- A text is a rule set unless a character code in it is too large. Then each of its patterns
compiles to a source that can be read, with its brackets kept or not, and so do the patterns of each
kind together. Otherwise the source of a pattern with its brackets kept spells out the code. -/
theorem ofContent_outcome (content : List Char) :
    (ofContent content = .error .codeTooLarge ∧
      ∃ pattern ∈ (RuleLines.ofContent content).ignoring ++
          (RuleLines.ofContent content).reincluding,
        (Rule.compile pattern).regex = .error .codeTooLarge ∧
        Regex.HoldsLargeCode (Rule.withBrackets pattern).source) ∨
    ∃ rules, ofContent content = .ok rules ∧
      ∀ kind ∈ [((RuleLines.ofContent content).ignoring, rules.ignoring),
          ((RuleLines.ofContent content).reincluding, rules.reincluding)],
        (∀ pattern ∈ kind.1,
          (∃ regex, Regex.read (Rule.withoutBrackets pattern).source = .ok regex) ∧
          ∃ regex, (Rule.compile pattern).regex = .ok regex) ∧
        kind.2.mergedSource = Matcher.mergeSources
          ((Matcher.sortPatterns kind.1).map fun pattern => (Rule.compile pattern).source) ∧
        Regex.read kind.2.mergedSource = .ok kind.2.merged := by
  rcases ofContent_cases content with
    ⟨broken, pattern, listed, unreadable⟩ | ⟨rules, returned, ignoring, reincluding⟩
  · exact .inl ⟨broken, pattern, listed, unreadable, unreadable.holds⟩
  refine .inr ⟨rules, returned, ?_⟩
  have each (patterns : List (List Char)) (matcher : Matcher)
      (compiled : Matcher.Compiled patterns matcher) :
      matcher.mergedSource = Matcher.mergeSources
        ((Matcher.sortPatterns patterns).map fun pattern => (Rule.compile pattern).source) := by
    have sources := congrArg (List.map Rule.source) compiled.rules
    simp only [List.map_map, Function.comp_def] at sources
    rw [compiled.mergedSource, sources]
  simp only [List.mem_cons, List.not_mem_nil, or_false, forall_eq_or_imp, forall_eq]
  exact ⟨⟨fun pattern listed =>
        ⟨Rule.read_withoutBrackets pattern, ignoring.readable_pattern pattern listed⟩,
      each _ _ ignoring, ignoring.merged⟩,
    ⟨fun pattern listed =>
        ⟨Rule.read_withoutBrackets pattern, reincluding.readable_pattern pattern listed⟩,
      each _ _ reincluding, reincluding.merged⟩⟩

end Compiling

/-- Not every text is a rule set. The line `[\UFFFFFFFF]` breaks the compiling off, where brackets
that hold any other error are taken literally. -/
theorem ofContent_broken : ¬∀ content, ∃ rules, ofContent content = .ok rules := by
  intro compiles
  obtain ⟨rules, returned⟩ := compiles "[\\UFFFFFFFF]".toList
  have broken : (ofContent "[\\UFFFFFFFF]".toList).isOk = false := by decide +kernel
  rw [returned] at broken
  cases broken

end Ruleset
end IgnoreRules
