import IgnoreRules.Proofs.Ruleset.Layout
import Mathlib.Order.MinMax
import IgnoreRules.Text.AsciiNames

/-!
# One rule text after another

A rule text behind another one adds its rules to those of the first. For each kind the rules of both
together reach as far as those of the one or of the other, whichever is further, although neither
the merged expressions nor the order of the rules are put together from those of the two texts. So a
text that does not speak of a path changes no verdict on it, and a text that only ignores, or only
re-includes, can change verdicts in one direction alone.
-/

namespace IgnoreRules

/-- A line feed between two texts makes no line of its own and joins no lines, also where the first
text ends with a carriage return. -/
theorem RuleLines.rules_append (first second : List Char) :
    rules (first ++ '\n' :: second) = rules first ++ rules second := by
  have cut : (first ++ '\n' :: second).splitOnP Text.endsLine =
      first.splitOnP Text.endsLine ++ second.splitOnP Text.endsLine :=
    List.splitOnP_append_cons first second rfl
  simp only [rules, Text.runs, cut, List.filter_append, List.map_append]

/-- The patterns of two texts, those of the first before those of the second. -/
theorem RuleLines.ofContent_append (first second : List Char) :
    ofContent (first ++ '\n' :: second) =
      ⟨(ofContent first).ignoring ++ (ofContent second).ignoring,
        (ofContent first).reincluding ++ (ofContent second).reincluding⟩ := by
  simp only [ofContent_rules, rules_append, List.filter_append, List.map_append]

namespace Matcher

/-- Patterns of two lists reach as far as those of the list that reaches further. -/
theorem Compiled.reach_append [Text.CharacterNames] {patterns others : List (List Char)}
    {both first second : Matcher} (together : Compiled (patterns ++ others) both)
    (compiled : Compiled patterns first) (compiledToo : Compiled others second) (path : List Char) :
    both.reach path = max (first.reach path) (second.reach path) := by
  refine eq_of_forall_lt_iff fun distance => ?_
  rw [together.lt_reach_iff, lt_max_iff, compiled.lt_reach_iff, compiledToo.lt_reach_iff]
  constructor
  · rintro ⟨pattern, listed, further⟩
    exact (List.mem_append.mp listed).imp (fun member => ⟨pattern, member, further⟩)
      fun member => ⟨pattern, member, further⟩
  · rintro (⟨pattern, member, further⟩ | ⟨pattern, member, further⟩)
    · exact ⟨pattern, List.mem_append_left _ member, further⟩
    · exact ⟨pattern, List.mem_append_right _ member, further⟩

end Matcher

namespace Ruleset

/-- One rule text after another does not compile just if one of the two does not. -/
theorem unreadable_append_iff [Text.CharacterNames] (first second : List Char) :
    Unreadable (first ++ '\n' :: second) ↔ Unreadable first ∨ Unreadable second := by
  simp only [unreadable_iff, RuleLines.ofContent_append, List.mem_append, or_and_right, exists_or]
  grind

/-- Verdicts of one rule text after another, where both compile. What the second text does not speak
of is judged by the first alone, ignoring rules keep no path and re-including rules ignore none. -/
theorem verdicts_append [Text.CharacterNames] (first second : List Char) :
    (Unreadable (first ++ '\n' :: second) ∧ (Unreadable first ∨ Unreadable second)) ∨
    ∃ rules others both, ofContent first = .ok rules ∧ ofContent second = .ok others ∧
      ofContent (first ++ '\n' :: second) = .ok both ∧ ∀ path,
      let longest (matcher : Matcher) := matchLength (matcher.longestMatch (normalizePath path))
      longest both.reincluding = max (longest rules.reincluding) (longest others.reincluding) ∧
      longest both.ignoring = max (longest rules.ignoring) (longest others.ignoring) ∧
      (others.inspects path = false →
        ∀ query, (both.consult query path).result = (rules.consult query path).result) ∧
      (others.reincluding.rules = [] → both.accepts path = true → rules.accepts path = true) ∧
      (others.ignoring.rules = [] → both.denies path = true → rules.denies path = true) ∧
      (both.inspects path = true ↔ rules.inspects path = true ∨ others.inspects path = true) := by
  rcases ofContent_cases (first ++ '\n' :: second) with unreadable | ⟨both, together, away, back⟩
  · exact .inl ⟨unreadable, (unreadable_append_iff first second).mp unreadable⟩
  have neither := mt (unreadable_append_iff first second).mpr (not_unreadable together)
  rw [not_or] at neither
  obtain ⟨rules, returned, ignoring, reincluding⟩ := (ofContent_cases first).resolve_left neither.1
  obtain ⟨others, returnedToo, ignoringToo, reincludingToo⟩ :=
    (ofContent_cases second).resolve_left neither.2
  refine .inr ⟨rules, others, both, returned, returnedToo, together, fun path => ?_⟩
  obtain ⟨accepts, denies, inspects⟩ := consult_result rules _ _ ignoring reincluding path
  obtain ⟨_, _, inspectsToo⟩ := consult_result others _ _ ignoringToo reincludingToo path
  obtain ⟨acceptsBoth, deniesBoth, inspectsBoth⟩ := consult_result both _ _ away back path
  -- The lines of both texts are those of one behind those of the other, and what a list of patterns
  -- reaches is the larger of what its two parts reach.
  have lines := RuleLines.ofContent_append first second
  have farAway : both.ignoring.reach (normalizePath path) =
      max (rules.ignoring.reach (normalizePath path))
        (others.ignoring.reach (normalizePath path)) :=
    Matcher.Compiled.reach_append (by simpa only [lines] using away) ignoring ignoringToo _
  have farBack : both.reincluding.reach (normalizePath path) =
      max (rules.reincluding.reach (normalizePath path))
        (others.reincluding.reach (normalizePath path)) :=
    Matcher.Compiled.reach_append (by simpa only [lines] using back) reincluding reincludingToo _
  simp only [Matcher.matchLength_longestMatch]
  refine ⟨farBack, farAway, ?_, ?_, ?_, ?_⟩
  · intro silent query
    rw [inspectsToo, decide_eq_false_iff_not] at silent
    exact consult_congr both rules _ _ away back ignoring reincluding path (by omega) (by omega)
      query
  · intro none
    have short := others.reincluding.reach_of_empty none (normalizePath path)
    rw [accepts, acceptsBoth, decide_eq_true_eq, decide_eq_true_eq]
    omega
  · intro none
    have short := others.ignoring.reach_of_empty none (normalizePath path)
    rw [denies, deniesBoth, decide_eq_true_eq, decide_eq_true_eq]
    omega
  · simp only [inspects, inspectsToo, inspectsBoth, decide_eq_true_eq]
    omega

/-- Behind `a` and `!a/b` neither `!c` changes what is said of `a/x` nor `c` what is said of
`a/b`. -/
theorem verdicts_append_unmoved :
    (∃ rules others both, ofContent "a\n!a/b\r".toList = .ok rules ∧
      ofContent "!c".toList = .ok others ∧ ofContent "a\n!a/b\r\n!c".toList = .ok both ∧
      others.inspects "a/x".toList = false ∧ others.ignoring.rules = [] ∧
      both.denies "a/x".toList = true ∧ rules.denies "a/x".toList = true) ∧
    ∃ rules others both, ofContent "a\n!a/b\r".toList = .ok rules ∧
      ofContent "c".toList = .ok others ∧ ofContent "a\n!a/b\r\nc".toList = .ok both ∧
      others.reincluding.rules = [] ∧ both.accepts "a/b".toList = true ∧
      rules.accepts "a/b".toList = true := by
  constructor
  · obtain ⟨rules, returned, denied⟩ : ∃ rules, ofContent "a\n!a/b\r".toList = .ok rules ∧
        rules.denies "a/x".toList = true := ok_of_view (by decide +kernel)
    obtain ⟨others, returnedToo, shown⟩ : ∃ others, ofContent "!c".toList = .ok others ∧
        (others.inspects "a/x".toList, others.ignoring.rules) = (false, []) :=
      ok_of_view (by decide +kernel)
    obtain ⟨silent, only⟩ := Prod.ext_iff.mp shown
    obtain ⟨_, _, both, again, againToo, together, verdicts⟩ :=
      (verdicts_append "a\n!a/b\r".toList "!c".toList).resolve_left
        fun broken => broken.2.elim (not_unreadable returned) (not_unreadable returnedToo)
    obtain rfl := Except.ok.inj (again.symm.trans returned)
    obtain rfl := Except.ok.inj (againToo.symm.trans returnedToo)
    obtain ⟨_, _, same, _, kept, _⟩ := verdicts "a/x".toList
    have deniedBoth := (same silent .denies).trans denied
    exact ⟨_, _, both, returned, returnedToo, together, silent, only, deniedBoth,
      kept only deniedBoth⟩
  · obtain ⟨rules, returned, accepted⟩ : ∃ rules, ofContent "a\n!a/b\r".toList = .ok rules ∧
        rules.accepts "a/b".toList = true := ok_of_view (by decide +kernel)
    obtain ⟨others, returnedToo, shown⟩ : ∃ others, ofContent "c".toList = .ok others ∧
        (others.inspects "a/b".toList, others.reincluding.rules) = (false, []) :=
      ok_of_view (by decide +kernel)
    obtain ⟨silent, only⟩ := Prod.ext_iff.mp shown
    obtain ⟨_, _, both, again, againToo, together, verdicts⟩ :=
      (verdicts_append "a\n!a/b\r".toList "c".toList).resolve_left
        fun broken => broken.2.elim (not_unreadable returned) (not_unreadable returnedToo)
    obtain rfl := Except.ok.inj (again.symm.trans returned)
    obtain rfl := Except.ok.inj (againToo.symm.trans returnedToo)
    obtain ⟨_, _, same, kept, _, _⟩ := verdicts "a/b".toList
    have acceptedBoth := (same silent .accepts).trans accepted
    exact ⟨_, _, both, returned, returnedToo, together, only, acceptedBoth,
      kept only acceptedBoth⟩

end Ruleset
end IgnoreRules
