import IgnoreRules.Proofs.Pattern.Bracketed
import IgnoreRules.Text.AsciiNames

/-!
# Brackets that are taken literally

Where the bracket expressions of a pattern cannot be read, the pattern is compiled once more as if
none of its brackets had a meaning. A backslash in front of each bracket says the same, and then the
pattern is compiled at the first attempt. The two rules are alike: what the failed attempt found out
about the text around the brackets is forgotten, and the flags follow from the whole text.
-/

namespace IgnoreRules

namespace Pattern

/-- Text with a backslash in front of every bracket that is not escaped. -/
def escapeBrackets : List Char → List Char
  -- A line feed is never escaped, but it is no bracket either.
  | '\\' :: c :: rest => '\\' :: c :: escapeBrackets rest
  | c :: rest =>
    if c = '[' ∨ c = ']' then '\\' :: c :: escapeBrackets rest else c :: escapeBrackets rest
  | [] => []

/-- A backslash that escapes nothing is the last character. -/
private theorem last_of_lone (c : Char) (rest : List Char)
    (lone : ∀ d more, c = '\\' → rest = d :: more → False) : c ≠ '\\' ∨ rest = [] := by
  by_cases escape : c = '\\'
  · right
    cases rest with
    | nil => rfl
    | cons d more => exact (lone d more escape rfl).elim
  · exact .inl escape

theorem unescape_escapeBrackets (text : List Char) :
    unescape (escapeBrackets text) = unescape text := by
  fun_induction escapeBrackets text with
  | case1 c rest ih => simp only [unescape, ih]
  | case2 c rest _ bracket ih => rcases bracket with rfl | rfl <;> simp [unescape, ih]
  | case3 c rest lone _ ih =>
    rcases last_of_lone c rest lone with plain | rfl
    · rw [unescape.eq_2 _ _ (by simp [plain]), unescape.eq_2 _ _ (by simp [plain]), ih]
    · rfl
  | case4 => rfl

theorem mem_escapeBrackets (text : List Char) (c : Char) (other : c ≠ '\\') :
    c ∈ escapeBrackets text ↔ c ∈ text := by
  fun_induction escapeBrackets text with
  | case1 d rest ih => simp [other, ih]
  | case2 d rest _ _ ih => simp [other, ih]
  | case3 d rest _ _ ih => simp [ih]
  | case4 => rfl

/-- Escaped brackets open no bracket expression. -/
theorem Division.ofText_escapeBrackets (text : List Char) :
    ofText (escapeBrackets text) = plain (escapeBrackets text) := by
  have scanned (before : List Char) :
      scan before none (escapeBrackets text) = plain (before.reverse ++ escapeBrackets text) := by
    fun_induction escapeBrackets text generalizing before with
    | case1 c rest ih =>
      by_cases feed : c = '\n'
      · simp [scan, feed, plain]
      · simp [scan, feed, ih]
    | case2 c rest _ bracket ih => rcases bracket with rfl | rfl <;> simp [scan, ih]
    | case3 c rest lone plainChar ih =>
      rcases last_of_lone c rest lone with escape | rfl
      · rw [scan.eq_4 _ _ _ (by simp [escape]) (by simp [escape])
          fun same => plainChar (.inl same), ih]
        simp
      · by_cases escape : c = '\\'
        · simp [scan, escape, escapeBrackets, plain]
        · rw [scan.eq_4 _ _ _ (by simp [escape]) (by simp [escape])
            fun same => plainChar (.inl same), ih]
          simp
    | case4 => simp [scan, plain]
  exact scanned []

/-! ## The ends of a text -/

theorem escapeBrackets_separator (text : List Char) :
    escapeBrackets (text ++ ['/']) = escapeBrackets text ++ ['/'] := by
  fun_induction escapeBrackets text with
  | case1 c rest ih => simp [escapeBrackets, ih]
  | case2 c rest _ bracket ih => rcases bracket with rfl | rfl <;> simp [escapeBrackets, ih]
  | case3 c rest lone plain ih =>
    rcases last_of_lone c rest lone with escape | rfl
    · rw [List.cons_append, escapeBrackets.eq_2 _ _ (by simp [escape]), if_neg plain, ih,
        List.cons_append]
    · by_cases escape : c = '\\'
      · subst escape
        rfl
      · simp [escapeBrackets, escape, plain]
  | case4 => rfl

theorem head?_escapeBrackets (text : List Char) :
    (escapeBrackets text).head? = some '/' ↔ text.head? = some '/' := by
  fun_cases escapeBrackets text with
  | case1 c rest => simp
  | case2 c rest _ bracket => rcases bracket with rfl | rfl <;> simp
  | case3 c rest => simp
  | case4 => simp

theorem getLast?_escapeBrackets (text : List Char) :
    (escapeBrackets text).getLast? = text.getLast? := by
  fun_induction escapeBrackets text with
  | case1 c rest ih => simp [List.getLast?_cons, ih]
  | case2 c rest _ _ ih => simp [List.getLast?_cons, ih]
  | case3 c rest _ _ ih => simp [List.getLast?_cons, ih]
  | case4 => rfl

end Pattern

namespace Rule

open Pattern

/-- Escaping brackets leaves the separators at the ends of a pattern where they are. -/
theorem Outline.ofPattern_escapeBrackets (pattern : List Char) :
    Outline.ofPattern (escapeBrackets pattern) =
      { Outline.ofPattern pattern with
        body := escapeBrackets (Outline.ofPattern pattern).body } := by
  have fronts : front (escapeBrackets pattern) = escapeBrackets (front pattern) := by
    rw [front, front]
    by_cases rooted : pattern.head? = some '/'
    · obtain ⟨rest, rfl⟩ := List.head?_eq_some_iff.mp rooted
      simp [escapeBrackets]
    · rw [if_neg rooted, if_neg (mt (head?_escapeBrackets pattern).mp rooted)]
  have backs (text : List Char) : back (escapeBrackets text) = escapeBrackets (back text) := by
    rw [back, back, getLast?_escapeBrackets]
    by_cases directory : text.getLast? = some '/'
    · obtain ⟨rest, rfl⟩ := List.getLast?_eq_some_iff.mp directory
      simp [escapeBrackets_separator]
    · rw [if_neg directory, if_neg directory]
  have outline (text : List Char) : Outline.ofPattern text =
      ⟨back (front text), text.head? = some '/', (front text).getLast? = some '/'⟩ := rfl
  rw [outline, outline, fronts, backs, getLast?_escapeBrackets]
  simp only [head?_escapeBrackets]

/-- Only a pattern with an opening bracket can have brackets that cannot be read. -/
theorem mem_of_bracketProblem? [Text.CharacterNames] (pattern : List Char)
    (rejected : (bracketProblem? pattern).isSome = true) :
    '[' ∈ (Outline.ofPattern pattern).body := by
  by_cases present : '[' ∈ (Outline.ofPattern pattern).body
  · exact present
  · rw [bracketProblem?_of_plain pattern (Division.ofText_of_not_mem _ present)] at rejected
    cases rejected

/-- A pattern whose brackets cannot be read is compiled as if each of them were escaped, and with
escapes it is compiled at the first attempt. -/
theorem literal_alike [Text.CharacterNames] (pattern : List Char)
    (rejected : (bracketProblem? pattern).isSome = true) :
    bracketProblem? (escapeBrackets pattern) = none ∧
      (∃ regex, (compile (escapeBrackets pattern)).regex = .ok regex) ∧
      Alike (compile pattern) (compile (escapeBrackets pattern)) := by
  have outline := Outline.ofPattern_escapeBrackets pattern
  have whole : Division.ofText (Outline.ofPattern (escapeBrackets pattern)).body =
      .plain (Outline.ofPattern (escapeBrackets pattern)).body := by
    rw [outline]
    exact Division.ofText_escapeBrackets _
  have bracket := mem_of_bracketProblem? pattern rejected
  have visible (text : List Char) (member : '[' ∈ text) : Text.trim text ≠ [] :=
    Text.trim_nonempty text ⟨'[', member, by decide⟩
  rw [compile_of_plain _ whole]
  refine ⟨bracketProblem?_of_plain _ whole, read_withoutBrackets _, ?_⟩
  rw [compile, if_pos rejected]
  apply withoutBrackets_alike _ _ _ _ _ _ rfl outline
  · exact (unescape_escapeBrackets _).symm
  · exact (mem_escapeBrackets _ '/' (by decide)).symm
  · exact visible _ bracket
  · exact visible _ ((mem_escapeBrackets _ '[' (by decide)).mpr bracket)

/-- The first attempt at `x/**[b\]-A]` finds a final `/**` in front of the bracket. The rule is that
of `x/**\[b\]-A\]`, which has none. -/
theorem literal_alike_forgets :
    (bracketProblem? "x/**[b\\]-A]".toList).isSome = true ∧
      (withBrackets "x/**[b\\]-A]".toList).directoryOnly = true ∧
      bracketProblem? "x/**\\[b\\]-A\\]".toList = none ∧
      (∃ regex, (compile "x/**\\[b\\]-A\\]".toList).regex = .ok regex) ∧
      Alike (compile "x/**[b\\]-A]".toList) (compile "x/**\\[b\\]-A\\]".toList) ∧
      (compile "x/**[b\\]-A]".toList).directoryOnly = false := by
  have rejected : (bracketProblem? "x/**[b\\]-A]".toList).isSome = true := by decide +kernel
  obtain ⟨first, compiles, alike⟩ := literal_alike "x/**[b\\]-A]".toList rejected
  exact ⟨rejected, by decide +kernel, first, compiles, alike, by decide +kernel⟩

end Rule
end IgnoreRules
