import IgnoreRules.Proofs.Pattern.Literal
import IgnoreRules.Proofs.Ruleset.Layout
import IgnoreRules.Text.AsciiNames

/-!
# Rules that are a name

A rule text that is one word ignores the entries of that name, at any depth and with whatever
characters around them in the path. Only the end of the path is not what it seems: an expression may
end in front of a line feed there, so the rule also ignores the entry whose name has one line feed
more.
-/

namespace IgnoreRules

theorem Text.trim_visible (text : List Char) (visible : ∀ c ∈ text, isBlank c = false) :
    trim text = text := by
  have kept (text : List Char) (visible : ∀ c ∈ text, isBlank c = false) :
      text.dropWhile isBlank = text := by
    cases text with
    | nil => rfl
    | cons c text => exact List.dropWhile_cons_of_neg (by simp [visible c])
  rw [trim, kept text visible, trimEnd, kept _ (by simpa using visible), List.reverse_reverse]

/-- A text without blanks is one line. -/
theorem RuleLines.rules_line (line : List Char) (visible : ∀ c ∈ line, Text.isBlank c = false)
    (holds : holdsRule line = true) : rules line = [line] := by
  have whole : ∀ c ∈ line, Text.endsLine c = false := by
    intro c member
    have shown := visible c member
    cases ends : Text.endsLine c with
    | false => rfl
    | true =>
      simp only [Text.endsLine, Bool.or_eq_true, decide_eq_true_eq] at ends
      rcases ends with rfl | rfl <;> cases shown
  have nonempty : line ≠ [] := by
    rintro rfl
    cases holds
  rw [rules, Text.runs, List.splitOnP_eq_singleton whole]
  simp [nonempty, Text.trim_visible line visible, holds]

/-- A normalized path starts with a separator. -/
theorem head?_normalizePath (path : List Char) : (normalizePath path).head? = some '/' := by
  unfold normalizePath
  split <;> rfl

namespace Ruleset

open Pattern

/-- A rule text with one pattern ignores what that pattern hits. -/
theorem denies_single_iff [Text.CharacterNames] (content pattern : List Char)
    (only : RuleLines.ofContent content = ⟨[pattern], []⟩) (regex : Regex)
    (read : (Rule.compile pattern).regex = .ok regex) :
    ∃ rules, ofContent content = .ok rules ∧
      ∀ path, rules.denies path = true ↔ regex.hits (normalizePath path) = true := by
  have readable : ∀ listed ∈ (RuleLines.ofContent content).ignoring ++
      (RuleLines.ofContent content).reincluding,
        ∃ regex, (Rule.compile listed).regex = .ok regex := by
    simp only [only, List.append_nil, List.mem_singleton, forall_eq]
    exact ⟨regex, read⟩
  obtain ⟨rules, returned, ignoring, reincluding⟩ := ofContent_compiled content readable
  rw [only] at ignoring reincluding
  refine ⟨rules, returned, fun path => ?_⟩
  rw [denies_iff rules _ _ ignoring reincluding path, ← Rule.reach_pos_iff pattern _ regex read]
  simp

section
variable (name : List Char) (nonempty : name ≠ []) (plain : ∀ c ∈ name, c.isAlphanum = true)

include nonempty plain in
/-- A word is neither a comment nor a re-including line. -/
theorem ofContent_word : RuleLines.ofContent name = ⟨[name], []⟩ := by
  have first (c : Char) (other : c.isAlphanum = false) : name.head? ≠ some c := fun same =>
    not_mem_word name plain c other (List.mem_of_mem_head? same)
  have visible (c : Char) (member : c ∈ name) := Text.isBlank_alphanum c (plain c member)
  have holds : RuleLines.holdsRule name = true := by
    simp [RuleLines.holdsRule, nonempty, first '#' rfl]
  rw [RuleLines.ofContent_rules, RuleLines.rules_line name visible holds]
  simp [RuleLines.reincludes, first '!' rfl]

include nonempty plain in
theorem regex_word [Text.CharacterNames] :
    (Rule.compile name).regex = .ok (Rule.expression false false (Mark.ofText name)) := by
  have absent := not_mem_word name plain
  have visible : Text.trim name ≠ [] := by
    rwa [Text.trim_visible name fun c member => Text.isBlank_alphanum c (plain c member)]
  exact Rule.regex_of_flat name (Division.ofText_of_not_mem name (absent '[' rfl)) visible
    (absent '/' rfl) (absent '\x00' rfl)

include nonempty plain in
/-- A rule that is a word ignores a path if a component is that word, or if the last one is the word
with a line feed behind it. -/
theorem denies_name_iff [Text.CharacterNames] :
    ∃ rules, ofContent name = .ok rules ∧ ∀ path,
      (rules.denies path = true ↔ name ∈ (normalizePath path).splitOn '/' ∨
        ((normalizePath path).splitOn '/').getLast? = some (name ++ ['\n'])) := by
  have slash := not_mem_word name plain '/' rfl
  obtain ⟨rules, returned, denied⟩ := denies_single_iff name name
    (ofContent_word name nonempty plain) _ (regex_word name nonempty plain)
  refine ⟨rules, returned, fun path => ?_⟩
  rw [denied, Rule.hits_name_iff _ name nonempty slash (acceptsAll_word name plain) _
    (head?_normalizePath path)]

end

/-- The rule `a1` ignores what lies below an entry `a1`, and not an entry whose name goes on. -/
theorem denies_name_below :
    "a1".toList ≠ [] ∧ (∀ c ∈ "a1".toList, c.isAlphanum = true) ∧
    ∃ rules, ofContent "a1".toList = .ok rules ∧
      rules.denies "b\\a1/c\n".toList = true ∧ ¬rules.denies "b/a12".toList = true := by
  have nonempty : "a1".toList ≠ [] := by decide
  have plain : ∀ c ∈ "a1".toList, c.isAlphanum = true := by simp
  obtain ⟨rules, returned, denied⟩ := denies_name_iff "a1".toList nonempty plain
  refine ⟨nonempty, plain, rules, returned, (denied _).mpr (.inl (by decide)), ?_⟩
  intro ignored
  exact absurd ((denied _).mp ignored) (by decide)

/-- A component that is the word is not the only reason to be ignored. The rule `a` ignores the
entry whose name is an `a` and a line feed. -/
theorem denies_name_lineFeed :
    ¬∀ name : List Char, name ≠ [] → (∀ c ∈ name, c.isAlphanum = true) →
      ∀ rules, ofContent name = .ok rules → ∀ path,
        (rules.denies path = true ↔ name ∈ (normalizePath path).splitOn '/') := by
  intro always
  obtain ⟨rules, returned, denied⟩ : ∃ rules, ofContent "a".toList = .ok rules ∧
      rules.denies "a\n".toList = true := ok_of_view (by decide +kernel)
  have member := (always "a".toList (by decide) (by simp) rules returned "a\n".toList).mp denied
  exact absurd member (by decide)

end Ruleset
end IgnoreRules
