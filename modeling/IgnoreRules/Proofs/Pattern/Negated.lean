import IgnoreRules.Proofs.Pattern.Bracketed
import IgnoreRules.Proofs.Pattern.Literal
import IgnoreRules.Text.AsciiNames

/-!
# Brackets that should exclude their members

A bracket expression is copied as it stands, so its contents mean what they mean in an expression.
An exclamation mark is a member like the others there: `[!ab]` stands for one of `!`, `a` and `b`,
the opposite of what it says. A caret does exclude the members behind it, but every other character
is in the class then, and so is the separator: `x[^a]y` is also found where an entry `y` lies in a
directory `x`.
-/

namespace IgnoreRules.Rule

open Pattern
open Regex (Reads sequence CharClass)

/-! ## A class between two words -/

/-- The pieces of a class with text on both sides. -/
def around (left : List Char) (set : CharClass) (right : List Char) : List Regex :=
  (Mark.ofText left).map Mark.regex ++ [.one set] ++ (Mark.ofText right).map Mark.regex

section
variable (left right : List Char) (set : CharClass)
  (words : ∀ c ∈ left ++ right, c.isAlphanum = true)
include words

/-- A bracket expression between words is looked for at any depth, and in files as well. -/
theorem regex_around [Text.CharacterNames] (contents : List Char) (escapes : '\\' ∉ contents)
    (unclosed : ']' ∉ contents) (reads : Reads ('[' :: contents ++ [']']) [.one set]) :
    (compile (left ++ '[' :: contents ++ ']' :: right)).regex =
      .ok (sequence (opening false ++ around left set right ++ closing false)) := by
  have absent := not_mem_word (left ++ right) words
  have flat := absent '/' rfl
  have nul := absent '\x00' rfl
  have plain : '\\' ∉ left ++ contents := by
    have outside := absent '\\' rfl
    simp only [List.mem_append, not_or] at outside ⊢
    exact ⟨outside.1, escapes⟩
  simp only [List.mem_append, not_or] at flat nul
  have front := Outline.front_of_not_mem left flat.1
  have back := Outline.back_of_not_mem right flat.2
  have starts : left.head? ≠ some '/' := fun same => flat.1 (List.mem_of_head? same)
  have ends : right.getLast? ≠ some '/' := fun same => flat.2 (List.mem_of_getLast? same)
  have forces (text : List Char) (flat : '/' ∉ text) (nul : '\x00' ∉ text) :
      (Fragment.ofText text).forcesDirectory = false :=
    (Mark.ofText_flat text (fun member => flat (mem_unescape _ _ member))
      fun member => nul (mem_unescape _ _ member)).2
  have flags : (withBrackets (left ++ '[' :: contents ++ ']' :: right)).rooted = false ∧
      (withBrackets (left ++ '[' :: contents ++ ']' :: right)).directoryOnly = false := by
    obtain ⟨rooted, directoryOnly⟩ := flags_bracket left contents right (absent '[' rfl) plain unclosed
    rw [rooted, directoryOnly, front, back, forces left flat.1 nul.1, forces right flat.2 nul.2]
    simp [starts, ends, flat.1, flat.2]
  have shown : Outline.back right = [] ∨ Text.trim (Outline.back right) ≠ [] := by
    rw [back]
    cases right with
    | nil => exact .inl rfl
    | cons c right =>
      exact .inr (Text.trim_nonempty _ ⟨c, by simp, Text.isBlank_alphanum c (words c (by simp))⟩)
  have whole := reads_withBrackets left contents right (absent '[' rfl) plain unclosed _ reads shown
  rw [flags.1, flags.2, front, back] at whole
  rw [compile_of_readable _ _ whole.read]
  exact whole.read

theorem matches_around (position : Nat) (text after : List Char) :
    (sequence (around left set right)).Matches position text after ↔
      ∃ c, text = left ++ c :: right ∧ set.contains c = true := by
  have wordsLeft : ∀ c ∈ left, c.isAlphanum = true := fun c member => words c (by simp [member])
  have wordsRight : ∀ c ∈ right, c.isAlphanum = true := fun c member => words c (by simp [member])
  simp only [around, Regex.matches_sequence_append, Mark.matches_marks,
    acceptsAll_word left wordsLeft, acceptsAll_word right wordsRight]
  constructor
  · rintro ⟨_, _, rfl, ⟨_, _, rfl, rfl, c, rfl, member⟩, rfl⟩
    exact ⟨c, by simp, member⟩
  · rintro ⟨c, rfl, member⟩
    exact ⟨left ++ [c], right, by simp, ⟨left, [c], rfl, rfl, c, rfl, member⟩, rfl⟩

/-- It is hit where the two words stand with a character of the class between them, behind a
separator and up to another one. -/
theorem hits_around_iff (path : List Char) (inLine : '\n' ∉ path) :
    (sequence (opening false ++ around left set right ++ closing false)).hits path = true ↔
      ∃ c before rest, set.contains c = true ∧
        path = before ++ '/' :: (left ++ c :: (right ++ rest)) ∧ AtBoundary rest := by
  simp only [Regex.hits_iff, matches_whole, matches_around left right set words]
  constructor
  · rintro ⟨before, _, after, rfl, -, _, last, rfl, ⟨c, rfl, member⟩, ended⟩
    refine ⟨c, before, last ++ after, member, by simp, ?_⟩
    rcases ended with rfl | ⟨-, rfl, final⟩
    · simp [AtBoundary]
    · obtain rfl := Regex.eq_nil_of_endsHere after (fun feed => inLine (by simp [feed])) final
      simp [AtBoundary]
  · rintro ⟨c, before, rest, member, rfl, boundary⟩
    cases rest with
    | nil =>
      refine ⟨before, '/' :: (left ++ c :: right), [], by simp, ?_⟩
      exact ⟨by simp, _, [], by simp, ⟨c, rfl, member⟩, .inr ⟨trivial, rfl, rfl⟩⟩
    | cons d rest =>
      obtain rfl : d = '/' := boundary d (by simp)
      refine ⟨before, '/' :: (left ++ c :: right ++ ['/']), rest, by simp, ?_⟩
      exact ⟨by simp, _, ['/'], by simp, ⟨c, rfl, member⟩, .inl rfl⟩

/-- Such a place is a component, or two components next to each other where the character is the
separator between them. -/
theorem hits_around_components (path : List Char) (inLine : '\n' ∉ path) :
    (sequence (opening false ++ around left set right ++ closing false)).hits ('/' :: path) = true ↔
      (∃ c, set.contains c = true ∧ left ++ c :: right ∈ path.splitOn '/') ∨
        (set.contains '/' = true ∧ [left, right] <:+: path.splitOn '/') := by
  have flat := not_mem_word (left ++ right) words '/' rfl
  simp only [List.mem_append, not_or] at flat
  rw [hits_around_iff left right set words ('/' :: path) (by simp [inLine])]
  simp only [mem_splitOn_iff, infix_splitOn_iff]
  constructor
  · rintro ⟨c, before, rest, member, split, boundary⟩
    by_cases separated : c = '/'
    · subst separated
      exact .inr ⟨member, flat.1, flat.2, before, rest, split, boundary⟩
    · refine .inl ⟨c, member, by simp [flat, Ne.symm separated], before, rest, ?_, boundary⟩
      simpa using split
  · rintro (⟨c, member, -, before, rest, split, boundary⟩ |
      ⟨member, -, -, before, rest, split, boundary⟩)
    · exact ⟨c, before, rest, member, by simpa using split, boundary⟩
    · exact ⟨'/', before, rest, member, split, boundary⟩

/-- A bracket expression between words hits what stands for its class. -/
theorem hits_bracket_iff [Text.CharacterNames] (contents : List Char) (escapes : '\\' ∉ contents)
    (unclosed : ']' ∉ contents) (nonempty : contents ≠ []) (more : contents ≠ ['^'])
    (read : CharClass.read contents = .ok set) (path : List Char) (rooted : path.head? = some '/')
    (inLine : '\n' ∉ path) :
    ∃ regex, (compile (left ++ '[' :: contents ++ ']' :: right)).regex = .ok regex ∧
      (regex.hits path = true ↔
        (∃ c, set.contains c = true ∧ left ++ c :: right ∈ path.splitOn '/') ∨
          (set.contains '/' = true ∧ [left, right] <:+: path.tail.splitOn '/')) := by
  obtain ⟨path, rfl⟩ := List.head?_eq_some_iff.mp rooted
  simp only [List.mem_cons, not_or] at inLine
  have reads := reads_bracket contents (enclosed_of_not_mem _ unclosed escapes) nonempty more set read
  refine ⟨_, regex_around left right set words contents escapes unclosed reads, ?_⟩
  rw [hits_around_components left right set words path inLine.2]
  simp [splitOn_separator]

end

/-! ## Marks of negation -/

/-- An exclamation mark is one more member. A caret excludes the members, but nothing keeps the
character in their place from being the separator between two components. -/
theorem negated_hits_iff [Text.CharacterNames] (left members right : List Char)
    (nonempty : members ≠ []) (letters : ∀ c ∈ left ++ members ++ right, c.isAlpha = true)
    (path : List Char) (rooted : path.head? = some '/') (inLine : '\n' ∉ path) :
    ∃ exclaimed careted,
      (compile (left ++ '[' :: '!' :: members ++ ']' :: right)).regex = .ok exclaimed ∧
      (compile (left ++ '[' :: '^' :: members ++ ']' :: right)).regex = .ok careted ∧
      (exclaimed.hits path = true ↔
        ∃ c, (c = '!' ∨ c ∈ members) ∧ left ++ c :: right ∈ path.splitOn '/') ∧
      (careted.hits path = true ↔
        (∃ c, c ∉ members ∧ left ++ c :: right ∈ path.splitOn '/') ∨
          [left, right] <:+: path.tail.splitOn '/') := by
  have words : ∀ c ∈ left ++ right, c.isAlphanum = true := by
    intro c member
    have inside : c ∈ left ++ members ++ right := by
      rcases List.mem_append.mp member with first | last
      · simp [first]
      · simp [last]
    rw [Char.isAlphanum, letters c inside, Bool.true_or]
  have absent (c : Char) (other : c.isAlpha = false) : c ∉ members := by
    intro member
    rw [letters c (by simp [member])] at other
    cases other
  -- A class of letters has no escape and no range, so its members are its contents.
  have escapes := absent '\\' rfl
  have unclosed := absent ']' rfl
  have separator := absent '/' rfl
  obtain ⟨plain, same⟩ :=
    Regex.ClassAtom.plain_of_not_mem ('!' :: members) (by simp [absent '-' rfl]) (by simp [escapes])
  obtain ⟨plainToo, sameToo⟩ :=
    Regex.ClassAtom.plain_of_not_mem members (absent '-' rfl) escapes
  have exclaimed := (CharClass.read_plain _ plain).1 (by simp)
  have careted := (CharClass.read_plain _ plainToo).2
  rw [same] at exclaimed
  rw [sameToo] at careted
  obtain ⟨first, compiled, hits⟩ := hits_bracket_iff left right _ words ('!' :: members)
    (by simp [escapes]) (by simp [unclosed]) (by simp) (by simp) exclaimed path rooted inLine
  obtain ⟨second, compiledToo, hitsToo⟩ := hits_bracket_iff left right _ words ('^' :: members)
    (by simp [escapes]) (by simp [unclosed]) (by simp) (by simp [nonempty]) careted path rooted inLine
  refine ⟨first, second, compiled, compiledToo, ?_, ?_⟩
  · simpa [CharClass.contains_ofMembers, separator] using hits
  · simpa [CharClass.contains_ofMembers, separator] using hitsToo

/-- In `/x/ab/e` the rule `ab[^cd]e` takes the separator for its one character. The rule `ab[!cd]e`
finds no `ab!e`, `abce` or `abde` there. -/
theorem negated_hits_across :
    ("cd".toList ≠ [] ∧ (∀ c ∈ "ab".toList ++ "cd".toList ++ "e".toList, c.isAlpha = true) ∧
      "/x/ab/e".toList.head? = some '/' ∧ '\n' ∉ "/x/ab/e".toList) ∧
    ∃ exclaimed careted, (compile "ab[!cd]e".toList).regex = .ok exclaimed ∧
      (compile "ab[^cd]e".toList).regex = .ok careted ∧
      exclaimed.hits "/x/ab/e".toList = false ∧ careted.hits "/x/ab/e".toList = true := by
  have characters : "cd".toList ≠ [] ∧
      (∀ c ∈ "ab".toList ++ "cd".toList ++ "e".toList, c.isAlpha = true) ∧
      "/x/ab/e".toList.head? = some '/' ∧ '\n' ∉ "/x/ab/e".toList :=
    ⟨by decide, by simp, by decide, by decide⟩
  obtain ⟨exclaimed, careted, read, readToo, hits, hitsToo⟩ := negated_hits_iff "ab".toList
    "cd".toList "e".toList characters.1 characters.2.1 "/x/ab/e".toList characters.2.2.1
    characters.2.2.2
  refine ⟨characters, exclaimed, careted, read, readToo, ?_, hitsToo.mpr (.inr ?_)⟩
  · rw [Bool.eq_false_iff]
    intro hit
    obtain ⟨c, _, member⟩ := hits.mp hit
    have components : "/x/ab/e".toList.splitOn '/' = [[], ['x'], ['a', 'b'], ['e']] := by decide
    rw [components] at member
    simp at member
  · exact ⟨[['x']], [], by decide⟩

/-- What a mark of negation stands for: in the place of the bracket expression there is one
character of a name that is no member. -/
def Excludes [Text.CharacterNames] (mark : Char) : Prop :=
  ∀ left members right : List Char, members ≠ [] →
    (∀ c ∈ left ++ members ++ right, c.isAlpha = true) →
    ∀ path : List Char, path.head? = some '/' → '\\' ∉ path → '\n' ∉ path →
    ∀ regex, (compile (left ++ '[' :: mark :: members ++ ']' :: right)).regex = .ok regex →
      (regex.hits path = true ↔ ∃ c, c ∉ members ∧ left ++ c :: right ∈ path.splitOn '/')

/-- Neither mark excludes the members and nothing else. The rule `a[!b]c` misses `/axc`, and
`a[^b]c` hits `/a/c`. -/
theorem negated_hits_otherwise : ¬Excludes '!' ∧ ¬Excludes '^' := by
  constructor
  · intro excludes
    obtain ⟨found, read, missed⟩ : ∃ found, (compile "a[!b]c".toList).regex = .ok found ∧
        found.hits "/axc".toList = false := ok_of_view (by decide +kernel)
    have hit := (excludes "a".toList "b".toList "c".toList (by decide) (by simp) "/axc".toList
      (by decide) (by decide) (by decide) found read).mpr ⟨'x', by decide, by decide⟩
    rw [missed] at hit
    cases hit
  · intro excludes
    obtain ⟨found, read, hit⟩ : ∃ found, (compile "a[^b]c".toList).regex = .ok found ∧
        found.hits "/a/c".toList = true := ok_of_view (by decide +kernel)
    obtain ⟨c, _, member⟩ := (excludes "a".toList "b".toList "c".toList (by decide) (by simp)
      "/a/c".toList (by decide) (by decide) (by decide) found read).mp hit
    have components : "/a/c".toList.splitOn '/' = [[], ['a'], ['c']] := by decide
    rw [components] at member
    simp at member

end IgnoreRules.Rule
