import IgnoreRules.Proofs.Ruleset.Precedence
import Mathlib.Order.Nat
import IgnoreRules.Text.AsciiNames

/-!
# The layout of a rule text

A rule text says what its rule lines say. How lines are ended, which blank characters stand around
them, and what empty lines and comments lie between them does not matter: a carriage return and a
line feed that meet enclose at most an empty line, and that is dropped. The order of the lines does
not matter either, since patterns are sorted before they are compiled, and a line that is given
again changes no verdict.
-/

namespace IgnoreRules

namespace Text

/-- A character that ends a line, alone or together with another one. -/
def endsLine (c : Char) : Bool := c = '\r' || c = '\n'

/-- The longest stretches of a text that hold no end of a line. -/
def runs (text : List Char) : List (List Char) := (text.splitOnP endsLine).filter (· ≠ [])

/-- A text has the same stretches in lines as between the characters that end lines. Between the two
characters of one end lies an empty stretch, which is no line. -/
theorem splitLines_runs (text : List Char) : (splitLines text).filter (· ≠ []) = runs text := by
  -- The first line is still growing, so the induction keeps it apart from those behind it.
  have apart : ∃ first lines stretches, splitLines text = first :: lines ∧
      text.splitOnP endsLine = first :: stretches ∧
      lines.filter (· ≠ []) = stretches.filter (· ≠ []) := by
    fun_induction splitLines text with
    | case1 => exact ⟨[], [], [], rfl, rfl, rfl⟩
    | case2 rest ih =>
      obtain ⟨first, lines, stretches, split, cut, same⟩ := ih
      refine ⟨[], splitLines rest, [] :: rest.splitOnP endsLine, rfl, ?_, ?_⟩
      · simp [List.splitOnP_cons_eq_if_modifyHead, endsLine]
      · rw [List.filter_cons_of_neg (by simp), split, cut, List.filter_cons, List.filter_cons, same]
    | case3 c rest _ ends ih =>
      obtain ⟨first, lines, stretches, split, cut, same⟩ := ih
      refine ⟨[], splitLines rest, rest.splitOnP endsLine, rfl, ?_, ?_⟩
      · simp [List.splitOnP_cons_eq_if_modifyHead, endsLine, ends]
      · rw [split, cut, List.filter_cons, List.filter_cons, same]
    | case4 c rest _ inside ih =>
      obtain ⟨first, lines, stretches, split, cut, same⟩ := ih
      refine ⟨c :: first, lines, stretches, by rw [split]; rfl, ?_, same⟩
      simp [List.splitOnP_cons_eq_if_modifyHead, endsLine, inside, cut]
  obtain ⟨first, lines, stretches, split, cut, same⟩ := apart
  rw [runs, split, cut, List.filter_cons, List.filter_cons, same]

end Text

namespace RuleLines

/-- A line that is neither empty nor a comment. -/
def holdsRule (line : List Char) : Bool := line ≠ [] && line.head? ≠ some '#'

/-- The lines of a text that hold rules. -/
def rules (content : List Char) : List (List Char) :=
  ((Text.runs content).map Text.trim).filter holdsRule

/-- The line re-includes what its pattern matches. -/
def reincludes (line : List Char) : Bool := line.head? = some '!'

theorem contentLines_rules (content : List Char) :
    (contentLines content).filter holdsRule = rules content := by
  have trimmed (lines : List (List Char)) :
      (lines.map Text.trim).filter holdsRule =
        ((lines.filter (· ≠ [])).map Text.trim).filter holdsRule := by
    induction lines with
    | nil => rfl
    | cons line lines ih =>
      by_cases empty : line = []
      · have dropped : holdsRule (Text.trim []) = false := rfl
        simp [empty, dropped, ih]
      · simp [empty, List.filter_cons, ih]
  rw [contentLines, trimmed, Text.splitLines_runs, rules]

/-- Lines are sorted into place one by one, which keeps their order. -/
theorem foldr_cons (lines : List (List Char)) :
    lines.foldr cons ⟨[], []⟩ =
      ⟨(lines.filter holdsRule).filter (!reincludes ·),
        ((lines.filter holdsRule).filter reincludes).map List.tail⟩ := by
  induction lines with
  | nil => rfl
  | cons line lines ih =>
    rw [List.foldr_cons, ih]
    cases line with
    | nil => simp [cons, holdsRule]
    | cons c pattern =>
      by_cases comment : c = '#'
      · simp [comment, cons, holdsRule]
      by_cases kept : c = '!'
      · simp [kept, cons, holdsRule, reincludes]
      rw [cons.eq_4 _ _ (by simp) (by simp [comment]) (by simp [kept])]
      simp [comment, kept, holdsRule, reincludes]

/-- The patterns of a text are those of its rule lines, in their order. -/
theorem ofContent_rules (content : List Char) :
    ofContent content =
      ⟨(rules content).filter (!reincludes ·),
        ((rules content).filter reincludes).map List.tail⟩ := by
  rw [ofContent, foldr_cons, contentLines_rules]

end RuleLines

namespace Matcher

theorem sortPatterns_sorted (patterns : List (List Char)) :
    (sortPatterns patterns).Pairwise (Text.precedes · · = true) :=
  List.pairwise_mergeSort Text.precedes_trans Text.precedes_total patterns

/-- Sorting leaves nothing of the order in which patterns are given. -/
theorem sortPatterns_perm (first second : List (List Char)) (same : first.Perm second) :
    sortPatterns first = sortPatterns second := by
  refine List.Perm.eq_of_pairwise (fun _ _ _ _ => Text.precedes_antisymm _ _)
    (sortPatterns_sorted first) (sortPatterns_sorted second) ?_
  calc
    (sortPatterns first).Perm first := List.mergeSort_perm first _
    first.Perm second := same
    second.Perm (sortPatterns second) := (List.mergeSort_perm second _).symm

theorem ofPatterns_perm [Text.CharacterNames] (first second : List (List Char))
    (same : first.Perm second) :
    ofPatterns first = ofPatterns second := by
  rw [ofPatterns, ofPatterns, sortPatterns_perm first second same]

/-- Matchers reach equally far if they hold the same patterns, in whatever number. -/
theorem Compiled.reach_congr [Text.CharacterNames] {patterns others : List (List Char)}
    {first second : Matcher} (compiled : Compiled patterns first)
    (compiledToo : Compiled others second) (same : ∀ pattern, pattern ∈ patterns ↔ pattern ∈ others)
    (path : List Char) :
    first.reach path = second.reach path := by
  have further (distance : Nat) : distance < first.reach path ↔ distance < second.reach path := by
    rw [compiled.lt_reach_iff, compiledToo.lt_reach_iff]
    simp only [same]
  exact eq_of_forall_lt_iff further

end Matcher

namespace Ruleset

/-- Whether a text compiles depends on which rule lines it has. -/
theorem unreadable_congr [Text.CharacterNames] (first second : List Char)
    (same : ∀ line, line ∈ RuleLines.rules first ↔ line ∈ RuleLines.rules second) :
    Unreadable first ↔ Unreadable second := by
  simp only [unreadable_iff, RuleLines.ofContent_rules, List.mem_append, List.mem_map,
    List.mem_filter, same]

/-- The rule lines of a text are all that counts of it. They are its patterns, in their order and by
kind. Texts with the same rule lines in another order are one rule set, and texts with the same rule
lines in other numbers give one verdict on every path, unless neither of them compiles. -/
theorem ofContent_layout [Text.CharacterNames] (first second : List Char) :
    (RuleLines.ofContent first).ignoring =
      (RuleLines.rules first).filter (!RuleLines.reincludes ·) ∧
    (RuleLines.ofContent first).reincluding =
      ((RuleLines.rules first).filter RuleLines.reincludes).map List.tail ∧
    ((RuleLines.rules first).Perm (RuleLines.rules second) →
      (Unreadable first ∧ Unreadable second) ∨
      ∃ rules, ofContent first = .ok rules ∧ ofContent second = .ok rules) ∧
    ((∀ line, line ∈ RuleLines.rules first ↔ line ∈ RuleLines.rules second) →
      (Unreadable first ∧ Unreadable second) ∨
      ∃ rules others, ofContent first = .ok rules ∧ ofContent second = .ok others ∧
        ∀ path, rules.accepts path = others.accepts path ∧
          rules.denies path = others.denies path ∧
          rules.inspects path = others.inspects path) := by
  have lines := RuleLines.ofContent_rules first
  have linesToo := RuleLines.ofContent_rules second
  have either (same : ∀ line, line ∈ RuleLines.rules first ↔ line ∈ RuleLines.rules second) :
      (Unreadable first ∧ Unreadable second) ∨ (¬Unreadable first ∧ ¬Unreadable second) := by
    rw [unreadable_congr first second same, and_self, and_self]
    exact Classical.em _
  refine ⟨by rw [lines], by rw [lines], ?_, ?_⟩
  · intro same
    refine (either fun _ => same.mem_iff).imp_right ?_
    rintro ⟨readable, _⟩
    obtain ⟨rules, returned, _⟩ := (ofContent_cases first).resolve_left readable
    refine ⟨rules, returned, ?_⟩
    -- Compiling begins with sorting, so both texts are the same from there on.
    have ignored := Matcher.ofPatterns_perm _ _ (same.filter (!RuleLines.reincludes ·))
    have reincluded := Matcher.ofPatterns_perm _ _
      ((same.filter RuleLines.reincludes).map List.tail)
    rw [← returned, ofContent, ofContent, lines, linesToo]
    simp only [ignored, reincluded]
  · intro same
    refine (either same).imp_right ?_
    rintro ⟨readable, readableToo⟩
    obtain ⟨rules, returned, ignoring, reincluding⟩ :=
      (ofContent_cases first).resolve_left readable
    obtain ⟨others, returnedToo, ignoringToo, reincludingToo⟩ :=
      (ofContent_cases second).resolve_left readableToo
    refine ⟨rules, others, returned, returnedToo, fun path => ?_⟩
    have away := ignoring.reach_congr ignoringToo
      (fun pattern => by simp only [lines, linesToo, List.mem_filter, same]) (normalizePath path)
    have back := reincluding.reach_congr reincludingToo
      (fun pattern => by simp only [lines, linesToo, List.mem_map, List.mem_filter, same])
      (normalizePath path)
    have answers := consult_congr rules others _ _ ignoring reincluding ignoringToo reincludingToo
      path away back
    exact ⟨answers .accepts, answers .denies, answers .inspects⟩

/-- Other line ends, comments and another order make no other rule set, and lines that are given
twice no other verdicts. -/
theorem ofContent_layout_repeated :
    (RuleLines.rules "a\r\n# b\n\r !a/b\r".toList).Perm
        (RuleLines.rules "!a/b\n\n\ta".toList) ∧
      (RuleLines.ofContent "a\r\n# b\n\r !a/b\r".toList).ignoring = ["a".toList] ∧
      (RuleLines.ofContent "a\r\n# b\n\r !a/b\r".toList).reincluding = ["a/b".toList] ∧
      (∃ rules, ofContent "a\r\n# b\n\r !a/b\r".toList = .ok rules ∧
        ofContent "!a/b\n\n\ta".toList = .ok rules) ∧
      (∀ line, line ∈ RuleLines.rules "!a/b\n\n\ta".toList ↔
        line ∈ RuleLines.rules "a\n!a/b\ra".toList) ∧
      ∃ rules others, ofContent "!a/b\n\n\ta".toList = .ok rules ∧
        ofContent "a\n!a/b\ra".toList = .ok others ∧
        rules.denies "a/c".toList = others.denies "a/c".toList := by
  have reordered : (RuleLines.rules "a\r\n# b\n\r !a/b\r".toList).Perm
      (RuleLines.rules "!a/b\n\n\ta".toList) := by decide
  have once : RuleLines.rules "!a/b\n\n\ta".toList = ["!a/b".toList, "a".toList] := by decide
  have twice : RuleLines.rules "a\n!a/b\ra".toList = ["a".toList, "!a/b".toList, "a".toList] := by
    decide
  have again : ∀ line, line ∈ RuleLines.rules "!a/b\n\n\ta".toList ↔
      line ∈ RuleLines.rules "a\n!a/b\ra".toList := by
    intro line
    rw [once, twice]
    simp only [List.mem_cons, List.not_mem_nil, or_false]
    grind
  obtain ⟨ignoring, reincluding, sorted, _⟩ :=
    ofContent_layout "a\r\n# b\n\r !a/b\r".toList "!a/b\n\n\ta".toList
  obtain ⟨_, _, _, repeated⟩ := ofContent_layout "!a/b\n\n\ta".toList "a\n!a/b\ra".toList
  obtain ⟨_, compiled, _⟩ : ∃ rules, ofContent "!a/b\n\n\ta".toList = .ok rules ∧
      rules.denies "a/c".toList = true := ok_of_view (by decide +kernel)
  have one := (sorted reordered).resolve_left fun both => not_unreadable compiled both.2
  obtain ⟨rules, others, returned, returnedToo, verdicts⟩ :=
    (repeated again).resolve_left fun both => not_unreadable compiled both.1
  exact ⟨reordered, ignoring.trans (by decide), reincluding.trans (by decide), one,
    again, rules, others, returned, returnedToo, (verdicts _).2.1⟩

end Ruleset
end IgnoreRules
