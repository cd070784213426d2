import IgnoreRules.Proofs.Pattern.Bracketed
import IgnoreRules.Proofs.Pattern.Hits
import IgnoreRules.Proofs.Pattern.Seam
import IgnoreRules.Text.AsciiNames

/-!
# Brackets with one letter

A bracket expression with one letter stands for the letter. The pattern is cut at the bracket,
though, and each part is replaced as if it were a text of its own. So a `/*` or a `/**` in front of
the bracket counts as final and a `**/` behind it as leading, and blank text behind it is dropped.
Where none of that happens the two rules are the same expression.
-/

namespace IgnoreRules

namespace Pattern

/-- A letter in brackets is a class of one member. -/
theorem reads_letter [Text.CharacterNames] (c : Char) (letter : c.isAlpha = true) :
    Regex.Reads ['[', c, ']'] [.one (.single c)] := by
  have apart (d : Char) (other : d.isAlpha = false) : d ∉ [c] := by
    simpa using (Text.letter_ne c d letter other).symm
  obtain ⟨plain, members⟩ := Regex.ClassAtom.plain_of_not_mem [c] (apart '-' rfl) (apart '\\' rfl)
  have caret : c ≠ '^' := Text.letter_ne c '^' letter rfl
  have set := (Regex.CharClass.read_plain [c] plain).1 (by simpa using caret)
  rw [members] at set
  exact reads_bracket [c] (enclosed_of_not_mem [c] (apart ']' rfl) (apart '\\' rfl)) (by simp)
    (by simpa using caret) _ set

/-- What marks stand for holds every character that they hold. -/
theorem Mark.mem_of_acceptsAll (c : Char) (marks : List Mark) (member : .char c ∈ marks)
    (text : List Char) (accepted : AcceptsAll marks text) : c ∈ text := by
  induction marks generalizing text with
  | nil => simp at member
  | cons mark marks ih =>
    obtain ⟨first, rest, rfl, found, others⟩ := accepted
    rcases List.mem_cons.mp member with rfl | member
    · rw [Accepts] at found
      simp [found]
    · exact List.mem_append_right _ (ih member rest others)

end Pattern

namespace Rule

open Pattern

section
variable (left right : List Char) (c : Char) (letter : c.isAlpha = true)
  (brackets : '[' ∉ left ++ right) (escapes : '\\' ∉ left ++ right)

include letter in
theorem Outline.ofPattern_letter :
    Outline.ofPattern (left ++ c :: right) =
      ⟨front left ++ c :: back right, left.head? = some '/', right.getLast? = some '/'⟩ := by
  have other : c ≠ '/' := Text.letter_ne c '/' letter rfl
  have between := ofPattern_between left [c] right (by simp) (by simp [other]) (by simp [other])
  simpa using between

include letter escapes in
private theorem letter_plain : '\\' ∉ left ++ [c] ∧ ']' ∉ [c] := by
  have apart (d : Char) (other : d.isAlpha = false) : d ≠ c := (Text.letter_ne c d letter other).symm
  simp only [List.mem_append, not_or] at escapes
  simp [escapes.1, apart '\\' rfl, apart ']' rfl]

include letter brackets escapes in
/-- The bracket is read as the letter. -/
theorem reads_withBrackets_letter [Text.CharacterNames]
    (shown : Outline.back right = [] ∨ Text.trim (Outline.back right) ≠ []) :
    Regex.Reads (withBrackets (left ++ '[' :: c :: ']' :: right)).source
      (opening (withBrackets (left ++ '[' :: c :: ']' :: right)).rooted ++
        (Mark.ofText (Outline.front left) ++ .char c :: Mark.ofText (Outline.back right)).map
          Mark.regex ++
        closing (withBrackets (left ++ '[' :: c :: ']' :: right)).directoryOnly) := by
  obtain ⟨plain, unclosed⟩ := letter_plain left right c letter escapes
  simpa [Mark.regex] using reads_withBrackets left [c] right brackets plain unclosed _
    (reads_letter c letter) shown

include letter brackets escapes in
/-- With the bracket a rule is rooted as with the letter, and it is for directories only where the
texts around the letter say so. -/
theorem withBrackets_letter_flags :
    (withBrackets (left ++ '[' :: c :: ']' :: right)).rooted =
        (withoutBrackets (left ++ c :: right)).rooted ∧
      ((Fragment.ofText (Outline.front left ++ c :: Outline.back right)).forcesDirectory =
          ((Fragment.ofText (Outline.front left)).forcesDirectory ||
            (Fragment.ofText (Outline.back right)).forcesDirectory) →
        (withBrackets (left ++ '[' :: c :: ']' :: right)).directoryOnly =
          (withoutBrackets (left ++ c :: right)).directoryOnly) := by
  have other : '/' ≠ c := (Text.letter_ne c '/' letter rfl).symm
  obtain ⟨plain, unclosed⟩ := letter_plain left right c letter escapes
  have flags := flags_bracket left [c] right brackets plain unclosed
  rw [List.append_assoc, List.cons_append, List.singleton_append] at flags
  rw [flags.1, flags.2]
  simp only [withoutBrackets, Outline.ofPattern_letter left right c letter, assemble, hasSeparator,
    forcesDirectory, Division.plain]
  constructor
  · simp [other]
  · intro forces
    simp [forces]

end

/-- A rule that asks for a character does not hit a path without it. -/
theorem not_hits_of_char (rooted directoryOnly : Bool) (marks : List Mark) (c : Char)
    (member : .char c ∈ marks) (path : List Char) (absent : c ∉ path) :
    ¬(Regex.sequence (opening rooted ++ marks.map Mark.regex ++ closing directoryOnly)).hits path =
      true := by
  rw [Regex.hits_iff]
  rintro ⟨before, found, after, rfl, matched⟩
  obtain ⟨_, body, last, rfl, inner, _⟩ := (matches_whole _ _ _ _ _ _).mp matched
  have inside := Mark.mem_of_acceptsAll c marks member body ((Mark.matches_marks _ _ _ _).mp inner)
  exact absent (by simp [inside])

/-- A rule with a letter in brackets hits what the rule with the letter alone hits, when nothing
around the letter is read otherwise for the bracket and the text behind it is not dropped. -/
theorem letter_hits_iff [Text.CharacterNames] (left right : List Char) (c : Char)
    (letter : c.isAlpha = true) (brackets : '[' ∉ left ++ right) (escapes : '\\' ∉ left ++ right)
    (seamless : Mark.Seamless (Outline.front left) c (Outline.back right))
    (shown : Outline.back right = [] ∨ Text.trim (Outline.back right) ≠ [])
    (path : List Char) (inLine : '\n' ∉ path) :
    ∃ bracketed bare, (compile (left ++ '[' :: c :: ']' :: right)).regex = .ok bracketed ∧
      (compile (left ++ c :: right)).regex = .ok bare ∧
      (bracketed.hits path = true ↔ bare.hits path = true) := by
  have outline := Outline.ofPattern_letter left right c letter
  have stays (d : Char) (other : d.isAlpha = false) (absent : d ∉ left ++ right) :
      d ∉ Outline.front left ++ c :: Outline.back right := by
    simp only [List.mem_append, List.mem_cons, not_or] at absent ⊢
    exact ⟨fun member => absent.1 (Outline.front_subset _ member),
      (Text.letter_ne c d letter other).symm,
      fun member => absent.2 (Outline.back_subset _ member)⟩
  have noBrackets := stays '[' rfl brackets
  have noEscapes := stays '\\' rfl escapes
  have visible : Text.trim (Outline.front left ++ c :: Outline.back right) ≠ [] :=
    Text.trim_nonempty _ ⟨c, by simp, Text.isBlank_letter c letter⟩
  have bracket := reads_withBrackets_letter left right c letter brackets escapes shown
  have kept := compile_of_readable _ _ bracket.read
  have bare := reads_of_not_mem (left ++ c :: right) (by rwa [outline]) (by rwa [outline])
  have single := compile_of_not_mem (left ++ c :: right) (by rwa [outline])
  obtain ⟨rooted, directoryOnly⟩ := withBrackets_letter_flags left right c letter brackets escapes
  rw [outline, single] at bare
  refine ⟨_, _, by rw [kept]; exact bracket.read, by rw [single]; exact bare.read, ?_⟩
  by_cases feed : '\n' ∈ Outline.front left
  · -- The paths have no line feed, so a line feed that is asked for is never found.
    have asked : .char '\n' ∈ Mark.ofText (Outline.front left) :=
      Mark.lineFeed_mem_ofText _ (fun member => noEscapes (by simp [member])) feed
    have askedToo := Mark.lineFeed_mem_ofText (Outline.front left ++ c :: Outline.back right)
      noEscapes (by simp [feed])
    exact iff_of_false (not_hits_of_char _ _ _ _ (by simp [asked]) path inLine)
      (not_hits_of_char _ _ _ _ askedToo path inLine)
  · obtain ⟨marks, forces⟩ := Mark.ofText_letter _ _ c letter noEscapes feed seamless
    rw [seamless.below, Bool.false_or] at directoryOnly
    rw [marks, rooted, directoryOnly forces]

/-- The rules `a/*/x*[S]/**` and `a/*/x*S/**` both hit `/a/b/xyS/`. -/
theorem letter_hits_both :
    ('S'.isAlpha = true ∧ '[' ∉ "a/*/x*".toList ++ "/**".toList ∧
      '\\' ∉ "a/*/x*".toList ++ "/**".toList) ∧
    Mark.Seamless (Outline.front "a/*/x*".toList) 'S' (Outline.back "/**".toList) ∧
    (Outline.back "/**".toList = [] ∨ Text.trim (Outline.back "/**".toList) ≠ []) ∧
    '\n' ∉ "/a/b/xyS/".toList ∧
    ∃ bracketed bare, (compile "a/*/x*[S]/**".toList).regex = .ok bracketed ∧
      (compile "a/*/x*S/**".toList).regex = .ok bare ∧
      bracketed.hits "/a/b/xyS/".toList = true ∧ bare.hits "/a/b/xyS/".toList = true := by
  have characters : 'S'.isAlpha = true ∧ '[' ∉ "a/*/x*".toList ++ "/**".toList ∧
      '\\' ∉ "a/*/x*".toList ++ "/**".toList := by decide
  have seamless : Mark.Seamless (Outline.front "a/*/x*".toList) 'S' (Outline.back "/**".toList) :=
    ⟨by decide, by decide, by decide, by decide⟩
  have shown : Outline.back "/**".toList = [] ∨ Text.trim (Outline.back "/**".toList) ≠ [] := by
    decide
  have inLine : '\n' ∉ "/a/b/xyS/".toList := by decide
  obtain ⟨bracketed, bare, read, readBare, same⟩ := letter_hits_iff "a/*/x*".toList "/**".toList 'S'
    characters.1 characters.2.1 characters.2.2 seamless shown "/a/b/xyS/".toList inLine
  have known : (compile "a/*/x*S/**".toList).regex = .ok bare := readBare
  have hit : (compile "a/*/x*S/**".toList).regex.toOption.map (·.hits "/a/b/xyS/".toList) =
      some true := by decide +kernel
  rw [known] at hit
  exact ⟨characters, seamless, shown, inLine, bracketed, bare, read, known,
    same.mpr (Option.some.inj hit), Option.some.inj hit⟩

/-- Brackets around a letter are not always without effect. The rule `a/*c` hits `/a/c`, but in
`a/*[c]` the star is taken for a whole segment and asks for a character before the letter. -/
theorem letter_hits_differ :
    ¬∀ (left right : List Char) (c : Char), c.isAlpha = true →
      '[' ∉ left ++ right → ']' ∉ left ++ right → '\\' ∉ left ++ right →
      Text.trim (left ++ c :: right) = left ++ c :: right →
      ∀ path : List Char, path.head? = some '/' → '\\' ∉ path → '\n' ∉ path →
      ∀ bracketed bare, (compile (left ++ '[' :: c :: ']' :: right)).regex = .ok bracketed →
        (compile (left ++ c :: right)).regex = .ok bare →
        (bracketed.hits path = true ↔ bare.hits path = true) := by
  intro always
  obtain ⟨bracketed, read, missed⟩ : ∃ bracketed,
      (compile "a/*[c]".toList).regex = .ok bracketed ∧ bracketed.hits "/a/c".toList = false :=
    ok_of_view (by decide +kernel)
  obtain ⟨bare, readBare, whole⟩ : ∃ bare, (compile "a/*c".toList).regex = .ok bare ∧
      bare.hits "/a/c".toList = true := ok_of_view (by decide +kernel)
  have same := always "a/*".toList [] 'c' (by decide) (by decide) (by decide) (by decide)
    (by decide) "/a/c".toList (by decide) (by decide) (by decide) bracketed bare
    read readBare
  rw [missed, whole] at same
  exact absurd (same.mpr rfl) nofun

end Rule
end IgnoreRules
