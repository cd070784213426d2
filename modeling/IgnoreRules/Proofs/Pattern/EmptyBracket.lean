import IgnoreRules.Proofs.Pattern.Bracketed
import IgnoreRules.Proofs.Pattern.NameWildcards
import Mathlib.Data.List.Chain
import IgnoreRules.Text.AsciiNames

/-!
# Empty brackets

In an expression a class does not end with its first member, so that of an empty bracket runs on
into what the text behind it has become. Where a wildcard for a name stands there, the bracket that
closes the class of its fragment closes this one too: the expression can be read, and the brackets
are kept. Everywhere else the class stays open, and only then the pattern is compiled as its text.
-/

namespace IgnoreRules.Pattern

open Regex (Lays Reads Token CharClass ClassAtom)

/-- The bracket at the end of an empty bracket is its first member. -/
theorem scan_empty [Text.CharacterNames] (rest : List Char) :
    Token.scan none ('[' :: ']' :: rest) = Token.scan (some [']']) rest := by
  simp [Token.scan]

namespace Mark

/-! ## Marks in a class -/

/-- The source of any mark but a class is plain and stays within a class. -/
theorem within_source (mark : Mark) (settled : mark.Settled) (other : mark.isClass = false) :
    Enclosed mark.source = true ∧ ClassAtom.Plain mark.source = true := by
  cases mark with
  | char c =>
    obtain ⟨ordinary, -, -⟩ := settled c rfl
    have apart (d : Char) (special : isSpecial d = true) : d ≠ c := by
      rintro rfl
      rw [ordinary] at special
      cases special
    by_cases separator : c = '/'
    · subst separator
      exact ⟨rfl, rfl⟩
    · rw [source_char c separator]
      have escape : '\\' ∉ [c] := by simp [apart '\\' rfl]
      exact ⟨enclosed_of_not_mem [c] (by simp [apart ']' rfl]) escape,
        (ClassAtom.plain_of_not_mem [c] (by simp [apart '-' rfl]) escape).1⟩
  | escaped c special =>
    rw [source_escaped]
    simp [Enclosed, ClassAtom.Plain, special_not_alphanumeric c special]
  | nameChar | wholeName | namePart => cases other
  | innerPath | leadingPath | trailingPath | anyText => exact ⟨rfl, rfl⟩

theorem within_sources (marks : List Mark) (settled : ∀ mark ∈ marks, mark.Settled)
    (other : marks.any isClass = false) :
    Enclosed (marks.flatMap source) = true ∧ ClassAtom.Plain (marks.flatMap source) = true := by
  induction marks with
  | nil => exact ⟨rfl, rfl⟩
  | cons mark marks ih =>
    simp only [List.any_cons, Bool.or_eq_false_iff] at other
    have first := within_source mark (settled mark (by simp)) other.1
    have rest := ih (fun more member => settled more (by simp [member])) other.2
    rw [List.flatMap_cons]
    exact ⟨enclosed_append _ _ first.1 rest.1, ClassAtom.plain_append _ _ first.2 rest.2⟩

/-- A class that is closed by a mark takes the repetition of the mark along. -/
theorem source_class [Text.CharacterNames] (mark : Mark) (closes : mark.isClass = true) :
    ∃ repetition tokens, mark.source = ['[', '^', '\\', '/'] ++ ']' :: repetition ∧
      Token.scan none repetition = .ok tokens ∧
      ∀ set, ∃ piece, Lays (.piece (.one set) :: tokens) [piece] := by
  cases mark with
  | nameChar => exact ⟨[], [], rfl, rfl, fun set => ⟨_, .piece _⟩⟩
  | wholeName => exact ⟨['+'], [.plus], rfl, rfl, fun set => ⟨_, .some set⟩⟩
  | namePart => exact ⟨['*'], [.star], rfl, rfl, fun set => ⟨_, .many set⟩⟩
  | _ => cases closes

/-- An empty bracket runs on to the first class behind it. -/
theorem reads_runOn [Text.CharacterNames] (front : List Mark)
    (settled : ∀ mark ∈ front, mark.Settled) (other : front.any isClass = false) (mark : Mark)
    (closes : mark.isClass = true) :
    ∃ piece, Reads ('[' :: ']' :: (front.flatMap source ++ mark.source)) [piece] := by
  obtain ⟨repetition, tokens, same, scanned, laid⟩ := source_class mark closes
  obtain ⟨enclosed, plain⟩ := within_sources front settled other
  have within : Enclosed (front.flatMap source ++ ['[', '^', '\\', '/']) = true :=
    enclosed_append _ _ enclosed rfl
  have contents : ClassAtom.Plain (']' :: (front.flatMap source ++ ['[', '^', '\\', '/'])) = true :=
    ClassAtom.plain_append [']'] _ rfl (ClassAtom.plain_append _ _ plain rfl)
  have set := (CharClass.read_plain _ contents).1 (by simp)
  obtain ⟨piece, lays⟩ := laid (.ofMembers false
    (ClassAtom.members (']' :: (front.flatMap source ++ ['[', '^', '\\', '/']))))
  refine ⟨piece, _, ?_, lays⟩
  rw [scan_empty, same, ← List.append_assoc, scan_enclosed _ _ _ within]
  change (do
    let set ← CharClass.read (']' :: (front.flatMap source ++ ['[', '^', '\\', '/']))
    return Token.piece (.one set) :: (← Token.scan none repetition)) = _
  rw [set, scanned]
  rfl

/-- Behind an empty bracket the source of marks can be read if a class is among them. -/
theorem reads_emptyBracket [Text.CharacterNames] (marks : List Mark)
    (settled : ∀ mark ∈ marks, mark.Settled) (closes : marks.any isClass = true) :
    ∃ pieces, Reads ('[' :: ']' :: marks.flatMap source) pieces := by
  obtain ⟨mark, found⟩ := Option.isSome_iff_exists.mp
    ((List.find?_isSome (p := isClass)).mpr (by simpa using closes))
  obtain ⟨isClass, front, rest, rfl, other⟩ := List.find?_eq_some_iff_append.mp found
  obtain ⟨piece, reads⟩ := reads_runOn front (fun more member => settled more (by simp [member]))
    (by simpa using other) mark isClass
  have behind := reads_marks rest fun more member => settled more (by simp [member])
  exact ⟨_, by simpa using reads.append behind⟩

end Mark

/-! ## Text without an empty bracket -/

/-- The second character does not close what the first one opens. -/
def Apart (before behind : Char) : Prop := ¬(before = '[' ∧ behind = ']')

instance (before behind : Char) : Decidable (Apart before behind) :=
  inferInstanceAs (Decidable (¬_))

/-- No `[]` is in the text, and none comes about where it begins. -/
structure Clear (text : List Char) : Prop where
  inside : text.IsChain Apart
  start : text.head? ≠ some ']'

theorem Clear.nil : Clear [] := ⟨.nil, by simp⟩

theorem Clear.append {first second : List Char} (left : Clear first) (right : Clear second) :
    Clear (first ++ second) := by
  refine ⟨left.inside.append right.inside fun _ _ c behind closed => right.start ?_, ?_⟩
  · rw [← closed.2]
    exact behind
  · cases first with
    | nil => exact right.start
    | cons c first => exact left.start

theorem Mark.clear_source (mark : Mark) (settled : mark.Settled) : Clear mark.source := by
  cases mark with
  | char c =>
    obtain ⟨ordinary, -, -⟩ := settled c rfl
    have closed : c ≠ ']' := by
      rintro rfl
      cases ordinary
    by_cases separator : c = '/'
    · subst separator
      exact ⟨by decide, by decide⟩
    · rw [source_char c separator]
      exact ⟨.singleton c, by simpa using closed⟩
  | escaped c special =>
    rw [source_escaped]
    exact ⟨by simp [Apart], by simp⟩
  | _ => exact ⟨by decide, by decide⟩

theorem Mark.clear_sources (marks : List Mark) (settled : ∀ mark ∈ marks, mark.Settled) :
    Clear (marks.flatMap source) := by
  induction marks with
  | nil => exact .nil
  | cons mark marks ih =>
    rw [List.flatMap_cons]
    exact (clear_source mark (settled mark (by simp))).append
      (ih fun other member => settled other (by simp [member]))

end IgnoreRules.Pattern

namespace IgnoreRules.Rule

open Pattern
open Regex (Token)

/-- Where brackets are ordinary characters each of them is escaped. -/
theorem clear_withoutBrackets (pattern : List Char) : Clear (withoutBrackets pattern).source := by
  have first (rooted : Bool) : Clear (openingSource rooted) := by
    cases rooted <;> exact ⟨by decide, by decide⟩
  have last (directoryOnly : Bool) : Clear (closingSource directoryOnly) := by
    cases directoryOnly <;> exact ⟨by decide, by decide⟩
  have body : Clear (bodySource (.plain (Outline.ofPattern pattern).body)) := by
    change Clear ([] ++ remainderSource (Outline.ofPattern pattern).body)
    rw [List.nil_append, remainderSource]
    split
    · exact .nil
    · rw [Mark.ofText_source]
      exact Mark.clear_sources _ (Mark.ofText_settled _)
  rw [withoutBrackets, assemble_source]
  exact ((first _).append body).append (last _)

/-! ## Rules with an empty bracket -/

theorem Outline.hasNameWildcard_back (text : List Char) :
    hasNameWildcard (back text) = hasNameWildcard text := by
  rw [back]
  split
  next ends =>
    obtain ⟨front, rfl⟩ := List.getLast?_eq_some_iff.mp ends
    rw [List.dropLast_concat, hasNameWildcard_separator]
  next => rfl

section
variable (left right : List Char) (brackets : '[' ∉ left ++ right) (escapes : '\\' ∉ left ++ right)

include brackets escapes in
/-- The brackets stand next to each other between the sources of the texts around them. -/
theorem source_emptyBracket :
    (withBrackets (left ++ ['[', ']'] ++ right)).source =
      openingSource (withBrackets (left ++ ['[', ']'] ++ right)).rooted ++
        (Fragment.ofText (Outline.front left)).source ++
        ('[' :: ']' :: remainderSource (Outline.back right) ++
          closingSource (withBrackets (left ++ ['[', ']'] ++ right)).directoryOnly) := by
  have split : left ++ ['[', ']'] ++ right = left ++ '[' :: [] ++ ']' :: right := by simp
  have plain : '\\' ∉ left ++ [] := by
    simp only [List.mem_append, not_or] at escapes
    simpa using escapes.1
  rw [split, withBrackets_bracket left [] right brackets plain (by simp), assemble_source]
  simp [bodySource, pieceSource]

include brackets escapes in
/-- The brackets can be kept exactly if a wildcard for a name stands behind them, and else nothing
closes them. -/
theorem bracketProblem?_emptyBracket [Text.CharacterNames] :
    bracketProblem? (left ++ ['[', ']'] ++ right) =
      if hasNameWildcard right then none else some .unclosedClass := by
  have plain : '\\' ∉ Outline.back right := fun member =>
    escapes (List.mem_append_right _ (Outline.back_subset _ member))
  have classes := Mark.any_ofText (Outline.back right)
  rw [unescape_of_not_mem _ plain, Outline.hasNameWildcard_back] at classes
  have settled := Mark.ofText_settled (Outline.back right)
  rw [bracketProblem?, source_emptyBracket left right brackets escapes]
  generalize (withBrackets (left ++ ['[', ']'] ++ right)).rooted = rooted
  generalize (withBrackets (left ++ ['[', ']'] ++ right)).directoryOnly = directoryOnly
  have front := (reads_opening rooted).append (reads_text (Outline.front left))
  cases wild : hasNameWildcard right with
  | false =>
    -- Without a class behind the brackets nothing closes theirs.
    have remainder : Enclosed (remainderSource (Outline.back right)) = true := by
      rw [remainderSource]
      split
      · rfl
      · rw [Mark.ofText_source]
        exact (Mark.within_sources _ settled (classes.trans wild)).1
    obtain ⟨first, opened, _⟩ := front
    rw [Regex.read, Token.scan_append none _ _ first opened, List.cons_append, List.cons_append,
      scan_empty, scan_unclosed _ _ (enclosed_append _ _ remainder (enclosed_closing _))]
    rfl
  | true =>
    have visible : Text.trim (Outline.back right) ≠ [] := by
      rw [← Outline.hasNameWildcard_back] at wild
      rcases mem_of_hasNameWildcard _ wild with star | question
      · exact Text.trim_nonempty _ ⟨'*', star, by decide⟩
      · exact Text.trim_nonempty _ ⟨'?', question, by decide⟩
    obtain ⟨pieces, reads⟩ := Mark.reads_emptyBracket _ settled (classes.trans wild)
    rw [remainderSource, if_neg visible, Mark.ofText_source (Outline.back right),
      (front.append (reads.append (reads_closing _))).read]
    rfl

include brackets escapes in
/-- The text behind an empty bracket decides whether the brackets of its pattern are kept. -/
theorem compile_emptyBracket [Text.CharacterNames] :
    compile (left ++ ['[', ']'] ++ right) =
      if hasNameWildcard right then withBrackets (left ++ ['[', ']'] ++ right)
      else withoutBrackets (left ++ ['[', ']'] ++ right) := by
  rw [compile, bracketProblem?_emptyBracket left right brackets escapes]
  cases hasNameWildcard right <;> rfl

include brackets escapes in
/-- A backslash in front of each bracket says that they are ordinary characters. -/
theorem compile_escapedBracket [Text.CharacterNames] :
    Alike (withoutBrackets (left ++ ['[', ']'] ++ right))
      (compile (left ++ ['\\', '[', '\\', ']'] ++ right)) := by
  have outline (middle : List Char) := Outline.ofPattern_between left middle right
  have plain := outline ['[', ']'] (by simp) (by simp) (by simp)
  have escaped := outline ['\\', '[', '\\', ']'] (by simp) (by simp) (by simp)
  have clean := Outline.not_mem left right '[' brackets
  have bare := Outline.not_mem left right '\\' escapes
  simp only [List.mem_append, not_or] at clean bare
  have whole : Division.ofText (Outline.ofPattern (left ++ ['\\', '[', '\\', ']'] ++ right)).body =
      .plain (Outline.ofPattern (left ++ ['\\', '[', '\\', ']'] ++ right)).body := by
    rw [escaped, Division.ofText, List.append_assoc, Division.scan_before _ _ _ clean.1 bare.1]
    simp [Division.scan, Division.scan_of_not_mem _ _ clean.2]
  rw [compile_of_plain _ whole]
  refine withoutBrackets_alike _ _ _ _ _ _ plain escaped ?_ (by simp)
    (Text.trim_nonempty _ ⟨'[', by simp, by decide⟩) (Text.trim_nonempty _ ⟨'[', by simp, by decide⟩)
  rw [List.append_assoc, List.append_assoc, unescape_append _ _ bare.1, unescape_append _ _ bare.1]
  simp [unescape]

end

/-- An empty bracket is compiled as its two characters exactly if no wildcard for a name stands
behind it. -/
theorem emptyBracket_alike_iff [Text.CharacterNames] (left right : List Char)
    (brackets : '[' ∉ left ++ right) (escapes : '\\' ∉ left ++ right) :
    Alike (compile (left ++ ['[', ']'] ++ right))
        (compile (left ++ ['\\', '[', '\\', ']'] ++ right)) ↔
      hasNameWildcard right = false := by
  have literal := compile_escapedBracket left right brackets escapes
  rw [compile_emptyBracket left right brackets escapes]
  cases wild : hasNameWildcard right with
  | false => simpa using literal
  | true =>
    refine iff_of_false (fun alike => ?_) nofun
    -- The rule that keeps the brackets has them next to each other, and the other one nowhere.
    have same := alike.source.trans literal.source.symm
    have clear := (clear_withoutBrackets (left ++ ['[', ']'] ++ right)).inside
    rw [← same, if_pos rfl, source_emptyBracket left right brackets escapes] at clear
    exact (List.isChain_cons_cons.mp (List.isChain_append.mp clear).2.1).1 ⟨rfl, rfl⟩

/-- The stars of `x/[]**.c/` are a pair, so its rule is that of `x/\[\]**.c/`. -/
theorem emptyBracket_alike_pair :
    ('[' ∉ "x/".toList ++ "**.c/".toList ∧ '\\' ∉ "x/".toList ++ "**.c/".toList) ∧
      hasNameWildcard "**.c/".toList = false ∧
      Alike (compile "x/[]**.c/".toList) (compile "x/\\[\\]**.c/".toList) := by
  have characters : '[' ∉ "x/".toList ++ "**.c/".toList ∧ '\\' ∉ "x/".toList ++ "**.c/".toList := by
    decide
  have tame : hasNameWildcard "**.c/".toList = false := by decide
  exact ⟨characters, tame,
    (emptyBracket_alike_iff "x/".toList "**.c/".toList characters.1 characters.2).mpr tame⟩

/-- An empty bracket is not always compiled as its two characters. The class of `a[]?` runs on to
the bracket at the end of the fragment for the question mark. -/
theorem emptyBracket_unlike :
    ¬∀ left right : List Char, '[' ∉ left ++ right → ']' ∉ left ++ right → '\\' ∉ left ++ right →
      Text.trim (left ++ ['[', ']'] ++ right) = left ++ ['[', ']'] ++ right →
      Alike (compile (left ++ ['[', ']'] ++ right))
        (compile (left ++ ['\\', '[', '\\', ']'] ++ right)) := by
  intro always
  have kept : (compile "a[]?".toList).source = "\\/a[][^\\/](?:$|\\/)".toList := by decide +kernel
  have escaped : (compile "a\\[\\]?".toList).source = "\\/a\\[\\][^\\/](?:$|\\/)".toList := by
    decide +kernel
  have same : (compile "a[]?".toList).source = (compile "a\\[\\]?".toList).source :=
    (always "a".toList "?".toList (by decide) (by decide) (by decide) (by decide)).source
  rw [kept, escaped] at same
  exact absurd same (by decide)

end IgnoreRules.Rule
