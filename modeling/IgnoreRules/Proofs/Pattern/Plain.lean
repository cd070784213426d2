import IgnoreRules.Proofs.Pattern.Shape

/-!
# Patterns without brackets

A replacement leaves text alone in which what it looks for does not occur, and most of them look
for something with a separator in front. Without a bracket expression the two ways to compile a
pattern are the same.
-/

namespace IgnoreRules

/-- What is not blank is not trimmed away. -/
theorem Text.trim_nonempty (text : List Char) (visible : ∃ c ∈ text, Text.isBlank c = false) :
    Text.trim text ≠ [] := by
  obtain ⟨c, member, shown⟩ := visible
  have kept (text : List Char) (member : c ∈ text) : c ∈ text.dropWhile Text.isBlank := by
    induction text with
    | nil => simp at member
    | cons d text ih =>
      by_cases blank : Text.isBlank d = true
      · rw [List.dropWhile_cons_of_pos blank]
        rcases List.mem_cons.mp member with rfl | member
        · simp [shown] at blank
        · exact ih member
      · rwa [List.dropWhile_cons_of_neg blank]
  have present : c ∈ Text.trim text := by
    rw [Text.trim, Text.trimEnd, List.mem_reverse]
    exact kept _ (List.mem_reverse.mpr (kept text member))
  exact List.ne_nil_of_mem present

theorem Text.letter_range (c : Char) (letter : c.isAlpha = true) :
    (65 ≤ c.toNat ∧ c.toNat ≤ 90) ∨ (97 ≤ c.toNat ∧ c.toNat ≤ 122) := by
  rcases Bool.or_eq_true_iff.mp letter with upper | lower
  · have bounds := of_decide_eq_true upper
    exact .inl bounds
  · obtain ⟨low, high⟩ := Bool.and_eq_true_iff.mp lower
    exact .inr ⟨of_decide_eq_true low, of_decide_eq_true high⟩

theorem Text.isBlank_printable (c : Char) (low : 32 < c.toNat) (high : c.toNat < 127) :
    isBlank c = false := by
  simp [isBlank, CodeRanges.contains, blankRanges]
  omega

theorem Text.isBlank_letter (c : Char) (letter : c.isAlpha = true) : isBlank c = false := by
  have range := letter_range c letter
  exact isBlank_printable c (by omega) (by omega)

theorem Text.alphanum_range (c : Char) (plain : c.isAlphanum = true) :
    48 ≤ c.toNat ∧ c.toNat ≤ 122 := by
  rcases Bool.or_eq_true_iff.mp plain with letter | digit
  · have range := letter_range c letter
    omega
  · have range : 48 ≤ c.toNat ∧ c.toNat ≤ 57 := Char.isDigit_iff_toNat.mp digit
    omega

theorem Text.isBlank_alphanum (c : Char) (plain : c.isAlphanum = true) : isBlank c = false := by
  have range := alphanum_range c plain
  exact isBlank_printable c (by omega) (by omega)

end IgnoreRules

namespace IgnoreRules.Pattern

theorem unescape_append (text rest : List Char) (absent : '\\' ∉ text) :
    unescape (text ++ rest) = text ++ unescape rest := by
  induction text with
  | nil => rfl
  | cons c text ih =>
    simp only [List.mem_cons, not_or] at absent
    rw [List.cons_append, unescape.eq_2 _ _ fun _ _ same => absurd same.symm absent.1, ih absent.2,
      List.cons_append]

theorem unescape_of_not_mem (text : List Char) (absent : '\\' ∉ text) : unescape text = text := by
  simpa [unescape] using unescape_append text [] absent

theorem mem_unescape (text : List Char) (c : Char) (member : c ∈ unescape text) : c ∈ text := by
  fun_induction unescape text with grind

namespace Division

/-- Where no bracket expression begins, the rest of a text belongs to the remainder. -/
theorem scan_of_not_mem (before text : List Char) (absent : '[' ∉ text) :
    scan before none text = plain (before.reverse ++ text) := by
  -- Scanning never enters a bracket, so the mode stays the same throughout.
  generalize mode : (none : Option (List Char)) = some?
  fun_induction scan before some? text with
  | case1 => simp [plain]
  | case2 before c rest escaped ih =>
    rw [ih (by simp_all) rfl]
    simp
  | case3 => rfl
  | case4 => simp at absent
  | case5 before c rest _ _ _ ih =>
    rw [ih (by simp_all) rfl]
    simp
  | case6 => simp [plain]
  | case7 | case8 | case9 | case10 | case11 | case12 => cases mode

/-- Text without an opening bracket is all remainder. -/
theorem ofText_of_not_mem (text : List Char) (absent : '[' ∉ text) : ofText text = plain text :=
  scan_of_not_mem [] text absent

end Division

namespace Mark

theorem innerDoubleStars_append (front rest : List Mark) (absent : .char '/' ∉ front) :
    innerDoubleStars (front ++ rest) = front ++ innerDoubleStars rest := by
  induction front with
  | nil => rfl
  | cons mark front ih =>
    simp only [List.mem_cons, not_or] at absent
    rw [List.cons_append, innerDoubleStars.eq_2 _ _ fun _ same _ => absent.1 same.symm,
      ih absent.2, List.cons_append]

theorem trailingDoubleStar_append (front rest : List Mark) (absent : .char '/' ∉ front) :
    trailingDoubleStar (front ++ rest) = front ++ trailingDoubleStar rest ∧
      hasTrailingDoubleStar (front ++ rest) = hasTrailingDoubleStar rest := by
  induction front with
  | nil => exact ⟨rfl, rfl⟩
  | cons mark front ih =>
    simp only [List.mem_cons, not_or] at absent
    have further := ih absent.2
    rw [List.cons_append, trailingDoubleStar.eq_2 _ _ fun _ same _ => absent.1 same.symm,
      hasTrailingDoubleStar.eq_2 _ _ fun _ same _ => absent.1 same.symm, further.1, further.2]
    exact ⟨rfl, rfl⟩

theorem starSegments_append (front rest : List Mark) (absent : .char '/' ∉ front) :
    starSegments (front ++ rest) = front ++ starSegments rest := by
  induction front with
  | nil => rfl
  | cons mark front ih =>
    simp only [List.mem_cons, not_or] at absent
    rw [List.cons_append, starSegments.eq_3 _ _ (fun _ same _ => absent.1 same.symm)
      fun _ same _ => absent.1 same.symm, ih absent.2, List.cons_append]

theorem releaseDoubleStars_of_not_mem (marks : List Mark) (absent : .char '\x00' ∉ marks) :
    releaseDoubleStars marks = marks := by
  fun_induction releaseDoubleStars marks with
  | case1 => simp at absent
  | case2 mark rest _ ih => rw [ih fun member => absent (by simp [member])]
  | case3 => rfl

end Mark
end IgnoreRules.Pattern

namespace IgnoreRules.Rule

open Pattern

/-- Where no text is in brackets there is one way to compile a pattern. -/
theorem withBrackets_of_plain (pattern : List Char)
    (whole : Division.ofText (Outline.ofPattern pattern).body =
      .plain (Outline.ofPattern pattern).body) :
    withBrackets pattern = withoutBrackets pattern := by
  simp only [withBrackets, withoutBrackets, whole]

theorem bracketProblem?_of_plain [Text.CharacterNames] (pattern : List Char)
    (whole : Division.ofText (Outline.ofPattern pattern).body =
      .plain (Outline.ofPattern pattern).body) :
    bracketProblem? pattern = none := by
  obtain ⟨regex, readable⟩ := read_withoutBrackets pattern
  rw [bracketProblem?, withBrackets_of_plain pattern whole, readable]

theorem compile_of_plain [Text.CharacterNames] (pattern : List Char)
    (whole : Division.ofText (Outline.ofPattern pattern).body =
      .plain (Outline.ofPattern pattern).body) :
    compile pattern = withoutBrackets pattern := by
  rw [compile, withBrackets_of_plain pattern whole, ite_self]

theorem compile_of_not_mem [Text.CharacterNames] (pattern : List Char)
    (absent : '[' ∉ (Outline.ofPattern pattern).body) :
    compile pattern = withoutBrackets pattern :=
  compile_of_plain pattern (Division.ofText_of_not_mem _ absent)

theorem readable_of_not_mem [Text.CharacterNames] (pattern : List Char)
    (absent : '[' ∉ (Outline.ofPattern pattern).body) :
    ∃ regex, (compile pattern).regex = .ok regex := by
  rw [compile_of_not_mem pattern absent]
  exact read_withoutBrackets pattern

private theorem bodySource_plain (text : List Char) (visible : Text.trim text ≠ []) :
    bodySource (.plain text) = (Fragment.ofText text).source := by
  change [] ++ remainderSource text = _
  rw [List.nil_append, remainderSource, if_neg visible]

/-- Rules that differ at most in how their patterns are written. -/
structure Alike (rule other : Rule) : Prop where
  source : rule.source = other.source
  rooted : rule.rooted = other.rooted
  directoryOnly : rule.directoryOnly = other.directoryOnly

/-- Where no bracket counts, escapes are dropped before anything else is looked at but the
separators. -/
theorem withoutBrackets_alike (pattern other text more : List Char) (rooted directoryOnly : Bool)
    (outline : Outline.ofPattern pattern = ⟨text, rooted, directoryOnly⟩)
    (outlineToo : Outline.ofPattern other = ⟨more, rooted, directoryOnly⟩)
    (same : unescape text = unescape more) (separators : '/' ∈ text ↔ '/' ∈ more)
    (visible : Text.trim text ≠ []) (visibleToo : Text.trim more ≠ []) :
    Alike (withoutBrackets pattern) (withoutBrackets other) := by
  have fragment : Fragment.ofText text = Fragment.ofText more := by
    simp only [Fragment.ofText, openWildcards, same]
  have contains : text.contains '/' = more.contains '/' := by
    rw [Bool.eq_iff_iff, List.contains_iff_mem, List.contains_iff_mem, separators]
  have remainder : remainderSource text = remainderSource more := by
    rw [remainderSource, remainderSource, if_neg visible, if_neg visibleToo, fragment]
  constructor <;>
    simp only [withoutBrackets, outline, outlineToo, assemble, hasSeparator, forcesDirectory,
      Division.plain, contains, fragment, remainder]

/-- The pieces of a pattern without brackets are the expressions of its marks. -/
theorem reads_of_plain [Text.CharacterNames] (pattern : List Char)
    (whole : Division.ofText (Outline.ofPattern pattern).body =
      .plain (Outline.ofPattern pattern).body)
    (visible : Text.trim (Outline.ofPattern pattern).body ≠ []) :
    Regex.Reads (compile pattern).source (opening (compile pattern).rooted ++
      (Mark.ofText (Outline.ofPattern pattern).body).map Mark.regex ++
      closing (compile pattern).directoryOnly) := by
  rw [compile_of_plain _ whole, withoutBrackets, assemble_source]
  rw [bodySource_plain _ visible]
  exact ((reads_opening _).append (reads_text _)).append (reads_closing _)

theorem reads_of_not_mem [Text.CharacterNames] (pattern : List Char)
    (absent : '[' ∉ (Outline.ofPattern pattern).body)
    (visible : Text.trim (Outline.ofPattern pattern).body ≠ []) :
    Regex.Reads (compile pattern).source (opening (compile pattern).rooted ++
      (Mark.ofText (Outline.ofPattern pattern).body).map Mark.regex ++
      closing (compile pattern).directoryOnly) :=
  reads_of_plain pattern (Division.ofText_of_not_mem _ absent) visible

/-- Of a blank pattern only its ends are compiled. -/
theorem reads_of_blank [Text.CharacterNames] (pattern : List Char)
    (absent : '[' ∉ (Outline.ofPattern pattern).body)
    (blank : Text.trim (Outline.ofPattern pattern).body = []) :
    Regex.Reads (compile pattern).source
      (opening (compile pattern).rooted ++ [] ++ closing (compile pattern).directoryOnly) := by
  have body : bodySource (.plain (Outline.ofPattern pattern).body) = [] := by
    change [] ++ remainderSource (Outline.ofPattern pattern).body = []
    rw [List.nil_append, remainderSource, if_pos blank]
  rw [compile_of_not_mem _ absent, withoutBrackets, assemble_source, body]
  exact ((reads_opening _).append .nil).append (reads_closing _)

end IgnoreRules.Rule
