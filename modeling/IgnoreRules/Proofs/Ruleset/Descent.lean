import IgnoreRules.Proofs.Ruleset.Precedence
import IgnoreRules.Text.AsciiNames

/-!
# What lies below a hit entry

A rule that hits a path hits every path below it. The match stays what it is: its pieces do not
look at the text behind them, and where it ended with the path it now ends with the separator that
follows. That is so for every compiled rule, whatever its bracket expressions have swallowed, since
the end of the path is asked for in the suffix of a rule and nowhere else.
-/

namespace IgnoreRules

namespace Rule

open Pattern

/-- A compiled rule that hits a path hits what lies below it. -/
theorem hits_below [Text.CharacterNames] (pattern : List Char) (regex : Regex)
    (read : Regex.read (compile pattern).source = .ok regex) (path rest : List Char)
    (inLine : path.getLast? ≠ some '\n') (hit : regex.hits path = true) :
    regex.hits (path ++ '/' :: rest) = true := by
  obtain ⟨pieces, whole, reads⟩ := reads_compile pattern ((readable_iff pattern).mp ⟨regex, read⟩)
  rw [reads.read] at read
  cases read
  rw [Regex.hits_iff] at hit ⊢
  obtain ⟨before, found, after, rfl, matched⟩ := hit
  obtain ⟨start, body, last, rfl, inner, ended⟩ := (matches_whole _ _ _ _ _ _).mp matched
  have moved (behind : List Char) :
      (Regex.sequence pieces).Matches (before.length + 1) body behind :=
    matches_pieces_anywhere pieces whole _ _ _ _ _ inner
  rcases ended with rfl | ⟨entry, rfl, ends⟩
  · exact ⟨before, _, after ++ '/' :: rest, by simp,
      (matches_whole _ _ _ _ _ _).mpr ⟨start, body, ['/'], rfl, moved _, .inl rfl⟩⟩
  · -- The match ended with the path. Behind it could only be a line feed, and there is none.
    obtain rfl := Regex.eq_nil_of_getLast? _ _ inLine ends
    exact ⟨before, _, rest, by simp,
      (matches_whole _ _ _ _ _ _).mpr ⟨start, body, ['/'], rfl, moved _, .inl rfl⟩⟩

end Rule

/-- A matcher that hits a path hits what lies below it. -/
theorem Matcher.Compiled.hits_below [Text.CharacterNames] {patterns : List (List Char)}
    {matcher : Matcher} (compiled : Compiled patterns matcher) (path rest : List Char)
    (inLine : path.getLast? ≠ some '\n') (hit : matcher.hits path = true) :
    matcher.hits (path ++ '/' :: rest) = true := by
  obtain ⟨entry, member, hitsEntry⟩ := (compiled.hits_iff path).mp hit
  obtain ⟨pattern, _, same⟩ := compiled.exists_pattern entry member
  have read := compiled.readable entry member
  rw [same] at read
  exact (compiled.hits_iff _).mpr
    ⟨entry, member, Rule.hits_below pattern entry.regex read path rest inLine hitsEntry⟩

/-- What is put behind a normalized path is normalized by itself. -/
theorem normalizePath_append (path rest : List Char) (normal : normalizePath path = path) :
    normalizePath (path ++ '/' :: rest) =
      path ++ '/' :: rest.map fun c => if c = '\\' then '/' else c := by
  unfold normalizePath at normal
  split at normal
  next tail same =>
    subst normal
    rw [normalizePath, List.map_append, same]
    rfl
  next text other =>
    -- A separator put in front would make the path longer.
    have length := congrArg List.length normal
    simp at length

namespace Ruleset

/-- Everything below a hit entry is hit by patterns that compile. Whatever speaks of a path speaks
of what lies below it, and where nothing is re-included what lies below an ignored path is ignored.
-/
theorem verdicts_below [Text.CharacterNames] (path rest : List Char)
    (normal : normalizePath path = path) (inLine : path.getLast? ≠ some '\n') :
    (∀ patterns, Matcher.Unreadable patterns ∨
      ∃ matcher, Matcher.ofPatterns patterns = .ok matcher ∧
        (matcher.hits path = true → matcher.hits (path ++ '/' :: rest) = true)) ∧
    ∀ content, Unreadable content ∨ ∃ rules, ofContent content = .ok rules ∧
      (rules.inspects path = true → rules.inspects (path ++ '/' :: rest) = true) ∧
      (rules.reincluding.rules = [] →
        rules.denies path = true → rules.denies (path ++ '/' :: rest) = true) := by
  constructor
  · intro patterns
    refine (Matcher.ofPatterns_cases patterns).imp_right ?_
    rintro ⟨matcher, returned, compiled⟩
    exact ⟨matcher, returned, compiled.hits_below path rest inLine⟩
  · intro content
    refine (ofContent_cases content).imp_right ?_
    rintro ⟨rules, returned, ignoring, reincluding⟩
    refine ⟨rules, returned, ?_, ?_⟩
    · simp only [inspects, consult, Query.weighsMatches, Bool.and_false, Bool.false_eq_true,
        if_false, Query.ofHits, Bool.or_eq_true, normal, normalizePath_append path rest normal]
      exact Or.imp (reincluding.hits_below path _ inLine) (ignoring.hits_below path _ inLine)
    · intro none denied
      have back := rules.reincluding.reach_of_empty none
      obtain ⟨_, denies, _⟩ := consult_result rules _ _ ignoring reincluding path
      obtain ⟨_, deniesBelow, _⟩ :=
        consult_result rules _ _ ignoring reincluding (path ++ '/' :: rest)
      rw [denies, back, decide_eq_true_eq, ignoring.reach_pos_iff, normal] at denied
      rw [deniesBelow, back, decide_eq_true_eq, ignoring.reach_pos_iff,
        normalizePath_append path rest normal]
      exact ignoring.hits_below path _ inLine denied

/-- The rule `a?` ignores `/x/ab` and so `/x/ab/c\d`, whose separator is written as a backslash. -/
theorem verdicts_below_ignored :
    normalizePath "/x/ab".toList = "/x/ab".toList ∧ "/x/ab".toList.getLast? ≠ some '\n' ∧
      (∃ matcher, Matcher.ofPatterns ["a?".toList] = .ok matcher ∧
        matcher.hits "/x/ab".toList = true ∧ matcher.hits "/x/ab/c\\d".toList = true) ∧
      ∃ rules, ofContent "a?".toList = .ok rules ∧ rules.reincluding.rules = [] ∧
        rules.denies "/x/ab".toList = true ∧ rules.inspects "/x/ab/c\\d".toList = true ∧
        rules.denies "/x/ab/c\\d".toList = true := by
  have normal : normalizePath "/x/ab".toList = "/x/ab".toList := by decide
  have inLine : "/x/ab".toList.getLast? ≠ some '\n' := by decide
  obtain ⟨below, judged⟩ := verdicts_below "/x/ab".toList "c\\d".toList normal inLine
  obtain ⟨matcher, returned, hit⟩ : ∃ matcher, Matcher.ofPatterns ["a?".toList] = .ok matcher ∧
      matcher.hits "/x/ab".toList = true := ok_of_view (by decide +kernel)
  obtain ⟨rules, compiled, shown⟩ : ∃ rules, ofContent "a?".toList = .ok rules ∧
      (rules.reincluding.rules, rules.inspects "/x/ab".toList, rules.denies "/x/ab".toList) =
        ([], true, true) := ok_of_view (by decide +kernel)
  simp only [Prod.mk.injEq] at shown
  obtain ⟨only, inspected, denied⟩ := shown
  obtain ⟨_, again, hits⟩ := (below ["a?".toList]).resolve_left fun ⟨broken, _⟩ => by
    rw [returned] at broken
    cases broken
  obtain rfl := Except.ok.inj (again.symm.trans returned)
  obtain ⟨_, compiledToo, inspects, denies⟩ :=
    (judged "a?".toList).resolve_left (not_unreadable compiled)
  obtain rfl := Except.ok.inj (compiledToo.symm.trans compiled)
  exact ⟨normal, inLine, ⟨_, returned, hit, hits hit⟩,
    _, compiled, only, denied, inspects inspected, denies only denied⟩

end Ruleset
end IgnoreRules
