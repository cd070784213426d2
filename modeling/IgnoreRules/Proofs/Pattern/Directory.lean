import IgnoreRules.Proofs.Pattern.Placement

/-!
# Rules for directories

A separator at the end of a pattern is taken off before anything else is looked at, so the pattern
is divided and compiled as it is without the separator. All that is left of it is the end of the
rule: a match ends with a separator, where it might also have ended with the path. The path of a
directory has that separator.
-/

namespace IgnoreRules.Rule

open Pattern
open Regex (Reads sequence)

/-! ## Patterns with a separator behind them -/

theorem Outline.ofPattern_directory (pattern : List Char) (nonempty : pattern ≠ [])
    (bare : pattern.getLast? ≠ some '/') :
    Outline.ofPattern (pattern ++ ['/']) =
      { Outline.ofPattern pattern with directoryOnly := true } := by
  obtain ⟨c, rest, rfl⟩ := List.exists_cons_of_ne_nil nonempty
  by_cases rooted : c = '/'
  · subst rooted
    -- Were nothing behind the separator in front, it would be the one at the end as well.
    have more : rest ≠ [] := by
      rintro rfl
      exact bare rfl
    have open_ : rest.getLast? ≠ some '/' := by
      rwa [List.getLast?_cons_of_ne_nil more] at bare
    simp [Outline.ofPattern, open_]
  · have last : (c :: (rest ++ ['/'])).getLast? = some '/' := by
      rw [← List.cons_append, List.getLast?_concat]
    have whole : (c :: (rest ++ ['/'])).dropLast = c :: rest := by
      rw [← List.cons_append, List.dropLast_concat]
    simp only [Outline.ofPattern, List.cons_append, List.head?_cons, Option.some.injEq, rooted,
      decide_false, if_false, last, bare, decide_true, if_true, whole]

/-- A separator behind a pattern makes its rule one for directories and leaves the rest of it as it
is. -/
theorem compile_directory [Text.CharacterNames] (pattern : List Char) (nonempty : pattern ≠ [])
    (bare : pattern.getLast? ≠ some '/') :
    compile (pattern ++ ['/']) = assemble (pattern ++ ['/'])
        { Outline.ofPattern pattern with directoryOnly := true } (division pattern) ∧
      (compile (pattern ++ ['/'])).rooted = (compile pattern).rooted := by
  have outline := Outline.ofPattern_directory pattern nonempty bare
  have divided := division_congr pattern (pattern ++ ['/']) (by rw [outline])
  rw [compile_eq (pattern ++ ['/']), outline, divided]
  refine ⟨rfl, ?_⟩
  rw [compile_eq pattern]
  simp only [assemble]

/-! ## What they hit -/

section
variable (rooted directoryOnly : Bool) (pieces : List Regex) (path : List Char)

/-- Whatever ends with a separator may do so in a rule for files as well. -/
theorem hits_of_directory
    (hit : (sequence (opening rooted ++ pieces ++ closing true)).hits path = true) :
    (sequence (opening rooted ++ pieces ++ closing directoryOnly)).hits path = true := by
  rw [Regex.hits_iff] at hit ⊢
  obtain ⟨before, text, after, same, matched⟩ := hit
  obtain ⟨start, body, last, rfl, inner, ended⟩ := (matches_whole _ _ _ _ _ _).mp matched
  have closed : last = ['/'] := by simpa using ended
  refine ⟨before, _, after, same, ?_⟩
  exact (matches_whole _ _ _ _ _ _).mpr ⟨start, body, last, rfl, inner, .inl closed⟩

/-- Where a match ends with the path, the separator behind the path of a directory follows. -/
theorem directory_hits (body : ∀ piece ∈ pieces, BodyPiece piece)
    (inLine : path.getLast? ≠ some '\n')
    (hit : (sequence (opening rooted ++ pieces ++ closing directoryOnly)).hits path = true) :
    (sequence (opening rooted ++ pieces ++ closing true)).hits (path ++ ['/']) = true := by
  rw [Regex.hits_iff] at hit ⊢
  obtain ⟨before, text, after, rfl, matched⟩ := hit
  obtain ⟨start, found, last, rfl, inner, ended⟩ := (matches_whole _ _ _ _ _ _).mp matched
  -- Either way the match is what was found with a separator behind it.
  have reached (rest : List Char) :
      (sequence (opening rooted ++ pieces ++ closing true)).Matches before.length
        ('/' :: (found ++ ['/'])) rest := by
    apply (matches_whole _ _ _ _ _ _).mpr
    exact ⟨start, found, ['/'], rfl, matches_pieces_anywhere pieces body _ _ _ _ _ inner, .inl rfl⟩
  rcases ended with rfl | ⟨-, rfl, final⟩
  · exact ⟨before, _, after ++ ['/'], by simp, reached _⟩
  · obtain rfl := Regex.eq_nil_of_getLast? _ _ inLine final
    exact ⟨before, _, [], by simp, reached _⟩

end

/-- A separator behind a pattern restricts its rule to directories and changes nothing else. The
rules keep their brackets or take them literally together, and are rooted together. Either both have
no expression, because a character code is too large, or what the rule for directories hits the
other one hits too, and what that hits the rule for directories hits as a directory. -/
theorem directory_restricts [Text.CharacterNames] (pattern : List Char) (nonempty : pattern ≠ [])
    (bare : pattern.getLast? ≠ some '/') :
    (bracketProblem? (pattern ++ ['/'])).isSome = (bracketProblem? pattern).isSome ∧
      (compile (pattern ++ ['/'])).rooted = (compile pattern).rooted ∧
      (compile (pattern ++ ['/'])).directoryOnly = true ∧
      ((Unreadable pattern ∧ Unreadable (pattern ++ ['/'])) ∨
        ∃ regex directory, (compile pattern).regex = .ok regex ∧
          (compile (pattern ++ ['/'])).regex = .ok directory ∧
          ∀ path : List Char, path.getLast? ≠ some '\n' →
            (directory.hits path = true → regex.hits path = true) ∧
            (regex.hits path = true → directory.hits (path ++ ['/']) = true)) := by
  have outline := Outline.ofPattern_directory pattern nonempty bare
  obtain ⟨assembled, rooted⟩ := compile_directory pattern nonempty bare
  have directoryOnly : (compile (pattern ++ ['/'])).directoryOnly = true := by
    rw [assembled]
    rfl
  have mode := bracketProblem?_congr pattern (pattern ++ ['/']) (by rw [outline])
  have alike := unreadable_congr pattern (pattern ++ ['/']) (by rw [outline])
  refine ⟨by rw [mode], rooted, directoryOnly, ?_⟩
  refine (Classical.em (Unreadable pattern)).imp (fun broken => ⟨broken, alike.mpr broken⟩)
    fun readable => ?_
  obtain ⟨pieces, body, reads⟩ := reads_division pattern readable
  have read (rule : Rule) (source : rule.source = openingSource rule.rooted ++
      bodySource (division pattern) ++ closingSource rule.directoryOnly) :
      rule.regex =
        .ok (sequence (opening rule.rooted ++ pieces ++ closing rule.directoryOnly)) := by
    rw [regex, source]
    exact (((reads_opening _).append reads).append (reads_closing _)).read
  have first := read (compile pattern) (by rw [compile_eq, assemble_source])
  have second := read (compile (pattern ++ ['/'])) (by rw [assembled, assemble_source])
  rw [rooted, directoryOnly] at second
  refine ⟨_, _, first, second, ?_⟩
  intro path inLine
  exact ⟨hits_of_directory _ _ pieces path, directory_hits _ _ pieces path body inLine⟩

/-- The brackets of `a/[c-b]*` are ordinary characters, and so are those of `a/[c-b]*/`. The first
rule hits the file `/a/[c-b]x`, and the second only the directory. -/
theorem directory_restricts_literal :
    "a/[c-b]*".toList ≠ [] ∧ "a/[c-b]*".toList.getLast? ≠ some '/' ∧
      (bracketProblem? "a/[c-b]*/".toList).isSome = true ∧
      ∃ regex directory, (compile "a/[c-b]*".toList).regex = .ok regex ∧
        (compile "a/[c-b]*/".toList).regex = .ok directory ∧
        "/a/[c-b]x".toList.getLast? ≠ some '\n' ∧ regex.hits "/a/[c-b]x".toList = true ∧
        directory.hits "/a/[c-b]x".toList = false ∧ directory.hits "/a/[c-b]x/".toList = true := by
  have nonempty : "a/[c-b]*".toList ≠ [] := by decide
  have bare : "a/[c-b]*".toList.getLast? ≠ some '/' := by decide
  have inLine : "/a/[c-b]x".toList.getLast? ≠ some '\n' := by decide
  have literal : (bracketProblem? "a/[c-b]*".toList).isSome = true := by decide +kernel
  obtain ⟨regex, read, hit⟩ : ∃ regex, (compile "a/[c-b]*".toList).regex = .ok regex ∧
      regex.hits "/a/[c-b]x".toList = true := ok_of_view (by decide +kernel)
  obtain ⟨directory, known, only⟩ : ∃ directory,
      (compile "a/[c-b]*/".toList).regex = .ok directory ∧
      directory.hits "/a/[c-b]x".toList = false := ok_of_view (by decide +kernel)
  have readable := (readable_iff _).mp ⟨regex, read⟩
  obtain ⟨mode, _, _, either⟩ := directory_restricts "a/[c-b]*".toList nonempty bare
  obtain ⟨found, other, readToo, knownToo, hits⟩ := either.resolve_left fun both => readable both.1
  obtain rfl : found = regex := Except.ok.inj (readToo.symm.trans read)
  obtain rfl : other = directory := Except.ok.inj (knownToo.symm.trans known)
  exact ⟨nonempty, bare, mode.trans literal, found, other, read, known, inLine, hit, only,
    (hits "/a/[c-b]x".toList inLine).2 hit⟩

end IgnoreRules.Rule
