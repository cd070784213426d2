import IgnoreRules.Proofs.Pattern.Plain
import IgnoreRules.Proofs.Regex.ClassReading

/-!
# Patterns with one bracket expression

A bracket expression cuts a pattern into the text before it and the text behind it. The separators
at the ends of the pattern belong to these texts, and each of them is replaced as if it were a
pattern of its own.
-/

namespace IgnoreRules

namespace Pattern

theorem enclosed_of_not_mem (text : List Char) (unclosed : ']' ∉ text) (escapes : '\\' ∉ text) :
    Enclosed text = true := by
  induction text with
  | nil => rfl
  | cons c text ih =>
    simp only [List.mem_cons, not_or] at unclosed escapes
    rw [Enclosed.eq_4 _ _ (fun _ _ same _ => escapes.1 same.symm)
      (fun same _ => escapes.1 same.symm) (Ne.symm unclosed.1), ih unclosed.2 escapes.2]

namespace Division

/-- Text before a bracket expression is scanned up to it. -/
theorem scan_before (front before rest : List Char) (brackets : '[' ∉ before)
    (escapes : '\\' ∉ before) :
    scan front none (before ++ rest) = scan (before.reverse ++ front) none rest := by
  induction before generalizing front with
  | nil => rfl
  | cons c before ih =>
    simp only [List.mem_cons, not_or] at brackets escapes
    rw [List.cons_append, scan.eq_4 _ _ _ (fun _ _ same => absurd same.symm escapes.1)
      (fun same => absurd same.symm escapes.1) (fun same => absurd same.symm brackets.1),
      ih _ brackets.2 escapes.2]
    simp

/-- The contents of a bracket expression are scanned up to its end. -/
theorem scan_contents (before inside contents rest : List Char) (unclosed : ']' ∉ contents)
    (escapes : '\\' ∉ contents) :
    scan before (some inside) (contents ++ ']' :: rest) =
      cons ⟨before.reverse, inside.reverse ++ contents⟩ (scan [] none rest) := by
  induction contents generalizing inside with
  | nil => rw [List.nil_append, scan.eq_8, List.append_nil]
  | cons c contents ih =>
    simp only [List.mem_cons, not_or] at unclosed escapes
    rw [List.cons_append, scan.eq_9 _ _ _ _ (fun _ _ same => absurd same.symm escapes.1)
      (fun same => absurd same.symm escapes.1) (fun same => absurd same.symm unclosed.1),
      ih _ unclosed.2 escapes.2]
    simp

theorem ofText_bracket (before contents behind : List Char) (brackets : '[' ∉ before ++ behind)
    (escapes : '\\' ∉ before ++ contents) (unclosed : ']' ∉ contents) :
    ofText (before ++ '[' :: contents ++ ']' :: behind) = ⟨[⟨before, contents⟩], behind⟩ := by
  simp only [List.mem_append, not_or] at brackets escapes
  have rest : scan [] none behind = plain behind := ofText_of_not_mem behind brackets.2
  rw [ofText, List.append_assoc, List.cons_append, scan_before _ _ _ brackets.1 escapes.1,
    scan.eq_3, scan_contents _ _ _ _ unclosed escapes.2, rest]
  simp [cons, plain]

end Division
end Pattern

namespace Rule

open Pattern

/-- A text without the separator that it may start with. -/
def Outline.front (text : List Char) : List Char :=
  if text.head? = some '/' then text.tail else text

/-- A text without the separator that it may end with. -/
def Outline.back (text : List Char) : List Char :=
  if text.getLast? = some '/' then text.dropLast else text

theorem Outline.front_subset (text : List Char) : front text ⊆ text := by
  unfold front
  split
  next => exact text.tail_sublist.subset
  next => exact List.Subset.refl text

theorem Outline.back_subset (text : List Char) : back text ⊆ text := by
  unfold back
  split
  next => exact text.dropLast_sublist.subset
  next => exact List.Subset.refl text

theorem Outline.front_of_not_mem (text : List Char) (flat : '/' ∉ text) : front text = text :=
  if_neg fun same => flat (List.mem_of_mem_head? same)

theorem Outline.back_of_not_mem (text : List Char) (flat : '/' ∉ text) : back text = text :=
  if_neg fun same => flat (List.mem_of_getLast? same)

theorem Outline.not_mem (left right : List Char) (c : Char) (absent : c ∉ left ++ right) :
    c ∉ front left ++ back right := by
  simp only [List.mem_append, not_or] at absent ⊢
  exact ⟨fun member => absent.1 (front_subset _ member),
    fun member => absent.2 (back_subset _ member)⟩

/-- The separators at the ends of a pattern belong to what stands around its middle. -/
theorem Outline.ofPattern_between (before middle behind : List Char) (some : middle ≠ [])
    (first : middle.head? ≠ .some '/') (last : middle.getLast? ≠ .some '/') :
    Outline.ofPattern (before ++ middle ++ behind) =
      ⟨front before ++ middle ++ back behind, before.head? = .some '/',
        behind.getLast? = .some '/'⟩ := by
  have starts : (before ++ middle ++ behind).head? = .some '/' ↔ before.head? = .some '/' := by
    cases before with
    | nil =>
      obtain ⟨c, middle, rfl⟩ := List.exists_cons_of_ne_nil some
      simpa using first
    | cons c before => simp
  have text : (if before.head? = .some '/' then (before ++ middle ++ behind).tail
      else before ++ middle ++ behind) = front before ++ middle ++ behind := by
    rw [front]
    by_cases rooted : before.head? = .some '/'
    · obtain ⟨before, rfl⟩ := List.head?_eq_some_iff.mp rooted
      simp
    · rw [if_neg rooted, if_neg rooted]
  have ends : (front before ++ middle ++ behind).getLast? = .some '/' ↔
      behind.getLast? = .some '/' := by
    rcases List.eq_nil_or_concat behind with rfl | ⟨behind, c, rfl⟩
    · rcases List.eq_nil_or_concat middle with rfl | ⟨middle, c, rfl⟩
      · exact absurd rfl some
      · simpa [← List.append_assoc] using last
    · simp [← List.append_assoc]
  have rest : (if behind.getLast? = .some '/' then (front before ++ middle ++ behind).dropLast
      else front before ++ middle ++ behind) = front before ++ middle ++ back behind := by
    rw [back]
    by_cases directory : behind.getLast? = .some '/'
    · obtain ⟨behind, rfl⟩ := List.getLast?_eq_some_iff.mp directory
      simp [← List.append_assoc]
    · rw [if_neg directory, if_neg directory]
  simp only [Outline.ofPattern, starts, text, ends, rest]

/-- Brackets that can be read are kept. -/
theorem compile_of_readable [Text.CharacterNames] (pattern : List Char) (regex : Regex)
    (readable : Regex.read (withBrackets pattern).source = .ok regex) :
    compile pattern = withBrackets pattern := by
  simp [compile, bracketProblem?, readable]

theorem reads_remainder [Text.CharacterNames] (text : List Char)
    (shown : text = [] ∨ Text.trim text ≠ []) :
    Regex.Reads (remainderSource text) ((Mark.ofText text).map Mark.regex) := by
  rcases shown with rfl | visible
  · exact .nil
  · rw [remainderSource, if_neg visible]
    exact reads_text text

section
variable (left contents right : List Char)

theorem Outline.ofPattern_bracket :
    Outline.ofPattern (left ++ '[' :: contents ++ ']' :: right) =
      ⟨front left ++ '[' :: contents ++ ']' :: back right, left.head? = some '/',
        right.getLast? = some '/'⟩ := by
  have between := ofPattern_between left ('[' :: contents ++ [']']) right (by simp) (by simp)
    (by simp [List.getLast?_cons])
  simpa using between

variable (brackets : '[' ∉ left ++ right) (escapes : '\\' ∉ left ++ contents)
  (unclosed : ']' ∉ contents)
include brackets escapes unclosed

/-- The bracket cuts the rule into the text before it, itself and the text behind it. -/
theorem withBrackets_bracket :
    withBrackets (left ++ '[' :: contents ++ ']' :: right) =
      assemble (left ++ '[' :: contents ++ ']' :: right)
        ⟨Outline.front left ++ '[' :: contents ++ ']' :: Outline.back right, left.head? = some '/',
          right.getLast? = some '/'⟩
        ⟨[⟨Outline.front left, contents⟩], Outline.back right⟩ := by
  simp only [List.mem_append, not_or] at escapes
  have division := Division.ofText_bracket (Outline.front left) contents (Outline.back right)
    (Outline.not_mem left right '[' brackets) (by
      simp only [List.mem_append, not_or]
      exact ⟨fun member => escapes.1 (Outline.front_subset _ member), escapes.2⟩) unclosed
  simp only [withBrackets, Outline.ofPattern_bracket, division]

/-- What stands in the bracket has no part in the flags of the rule. -/
theorem flags_bracket :
    (withBrackets (left ++ '[' :: contents ++ ']' :: right)).rooted =
        (decide (left.head? = some '/') ||
          ((Outline.front left).contains '/' || (Outline.back right).contains '/')) ∧
      (withBrackets (left ++ '[' :: contents ++ ']' :: right)).directoryOnly =
        (decide (right.getLast? = some '/') ||
          ((Fragment.ofText (Outline.front left)).forcesDirectory ||
            (Fragment.ofText (Outline.back right)).forcesDirectory)) := by
  rw [withBrackets_bracket left contents right brackets escapes unclosed]
  simp only [assemble, hasSeparator, forcesDirectory, List.any_cons, List.any_nil, Bool.or_false,
    and_self]

/-- The rule is read as the marks of the two texts with what the bracket is read as between them. -/
theorem reads_withBrackets [Text.CharacterNames] (pieces : List Regex)
    (reads : Regex.Reads ('[' :: contents ++ [']']) pieces)
    (shown : Outline.back right = [] ∨ Text.trim (Outline.back right) ≠ []) :
    Regex.Reads (withBrackets (left ++ '[' :: contents ++ ']' :: right)).source
      (opening (withBrackets (left ++ '[' :: contents ++ ']' :: right)).rooted ++
        ((Mark.ofText (Outline.front left)).map Mark.regex ++ pieces ++
          (Mark.ofText (Outline.back right)).map Mark.regex) ++
        closing (withBrackets (left ++ '[' :: contents ++ ']' :: right)).directoryOnly) := by
  have body : Regex.Reads (bodySource ⟨[⟨Outline.front left, contents⟩], Outline.back right⟩)
      ((Mark.ofText (Outline.front left)).map Mark.regex ++ pieces ++
        (Mark.ofText (Outline.back right)).map Mark.regex) := by
    have parts := ((reads_text (Outline.front left)).append reads).append (reads_remainder _ shown)
    simpa [bodySource, pieceSource] using parts
  rw [withBrackets_bracket left contents right brackets escapes unclosed, assemble_source]
  exact ((reads_opening _).append body).append (reads_closing _)

end
end Rule
end IgnoreRules
