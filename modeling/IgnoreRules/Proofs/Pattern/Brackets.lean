import IgnoreRules.Pattern.Brackets
import IgnoreRules.Proofs.Regex.ClassReading

/-!
# What stands in brackets

A backslash takes the character after it along, so the contents of a bracket expression are made
of escapes and of characters that are neither a backslash nor the closing bracket.
-/

namespace IgnoreRules.Pattern

/-- Text in which every `]` and every backslash is part of an escape. -/
def Enclosed : List Char → Bool
  | '\\' :: _ :: rest => Enclosed rest
  | ['\\'] => false
  | ']' :: _ => false
  | _ :: rest => Enclosed rest
  | [] => true

theorem enclosed_append (first second : List Char) (left : Enclosed first = true)
    (right : Enclosed second = true) : Enclosed (first ++ second) = true := by
  fun_induction Enclosed first with
  | case1 c rest ih => simpa [Enclosed] using ih left
  | case2 => cases left
  | case3 => cases left
  | case4 c rest escape lone closed ih =>
    have plain : c ≠ '\\' := Regex.ne_backslash escape lone
    rw [List.cons_append, Enclosed.eq_4 _ _ (by simp [plain]) (by simp [plain]) closed]
    exact ih left
  | case5 => exact right

namespace Division

private theorem contents_of_scan (before : List Char) (mode : Option (List Char))
    (text : List Char)
    (inside : ∀ contents, mode = some contents → Enclosed contents.reverse = true) :
    ∀ piece ∈ (scan before mode text).pieces, Enclosed piece.contents = true := by
  fun_induction scan before mode text with
  | case1 | case3 | case6 | case7 | case9 | case12 => simp
  | case2 before c rest _ ih => exact ih (by simp)
  | case4 before rest ih => exact ih (by simp [Enclosed])
  | case5 before c rest _ _ _ ih => exact ih (by simp)
  | case8 before contents c rest _ ih =>
    refine ih fun more same => ?_
    cases same
    have escape : Enclosed ['\\', c] = true := rfl
    simpa using enclosed_append _ _ (inside contents rfl) escape
  | case10 before contents rest ih =>
    intro piece member
    rcases List.mem_cons.mp member with rfl | member
    · exact inside contents rfl
    · exact ih (by simp) piece member
  | case11 before contents c rest escape lone closed ih =>
    refine ih fun more same => ?_
    cases same
    have plain : c ≠ '\\' := Regex.ne_backslash escape lone
    have single : Enclosed [c] = true := by
      rw [Enclosed.eq_4 _ _ (by simp) (by simp [plain]) closed]
      rfl
    simpa using enclosed_append _ _ (inside contents rfl) single

/-- Every bracket expression encloses its contents. -/
theorem enclosed_contents (text : List Char) :
    ∀ piece ∈ (ofText text).pieces, Enclosed piece.contents = true :=
  contents_of_scan [] none text (by simp)

end Division
end IgnoreRules.Pattern
