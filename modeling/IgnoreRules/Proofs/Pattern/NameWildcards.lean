import IgnoreRules.Proofs.Glob.Marks

/-!
# Wildcards for a name

A question mark and a star for part of a name become fragments with a class of their own, the only
ones in which an expression has a closing bracket that is not escaped. Stars are replaced in pairs
wherever two stand next to each other, so a run of stars leaves a single one exactly if its length
is odd, whatever the replacements before the last ones have done to it.
-/

namespace IgnoreRules.Pattern

/-- A question mark stands in the text, or a star that is not one of a pair. -/
def hasNameWildcard : List Char → Bool
  | '*' :: '*' :: rest => hasNameWildcard rest
  | c :: rest => c = '*' || c = '?' || hasNameWildcard rest
  | [] => false

theorem hasNameWildcard_separator (text : List Char) :
    hasNameWildcard (text ++ ['/']) = hasNameWildcard text := by
  fun_induction hasNameWildcard text with
  | case1 rest ih => simpa [hasNameWildcard] using ih
  | case2 c rest single ih =>
    rw [List.cons_append, hasNameWildcard.eq_2, ih]
    rintro more rfl same
    cases rest with
    | nil => cases same
    | cons d rest =>
      obtain ⟨rfl, _⟩ := List.cons.inj same
      exact single rest rfl rfl
  | case3 => rfl

theorem mem_of_hasNameWildcard (text : List Char) (wild : hasNameWildcard text = true) :
    '*' ∈ text ∨ '?' ∈ text := by
  fun_induction hasNameWildcard text with
  | case1 => simp
  | case2 c rest _ ih =>
    simp only [Bool.or_eq_true, decide_eq_true_eq] at wild
    rcases wild with (rfl | rfl) | further
    · simp
    · simp
    · exact (ih further).imp (List.mem_cons_of_mem c) (List.mem_cons_of_mem c)
  | case3 => cases wild

namespace Mark

/-- A fragment that is a class or the repetition of one. -/
def isClass : Mark → Bool
  | .nameChar => true
  | .wholeName => true
  | .namePart => true
  | _ => false

/-- Among these marks is a class, or a star is left over once pairs of stars are replaced. The star
in front of them has no partner yet if `odd`. -/
def leavesClass : Bool → List Mark → Bool
  | odd, [] => odd
  | odd, .char '*' :: rest => leavesClass (!odd) rest
  | odd, mark :: rest => odd || mark.isClass || leavesClass false rest

theorem leavesClass_cons (odd : Bool) (mark : Mark) (other : mark ≠ .char '*') (rest : List Mark) :
    leavesClass odd (mark :: rest) = (odd || mark.isClass || leavesClass false rest) :=
  leavesClass.eq_3 _ _ _ other

theorem leavesClass_congr (odd : Bool) (mark : Mark) (marks more : List Mark)
    (same : ∀ odd, leavesClass odd marks = leavesClass odd more) :
    leavesClass odd (mark :: marks) = leavesClass odd (mark :: more) := by
  by_cases star : mark = .char '*'
  · subst star
    rw [leavesClass, leavesClass, same]
  · rw [leavesClass_cons _ _ star, leavesClass_cons _ _ star, same]

/-- A star without a partner is left over where no other star follows it. -/
theorem leavesClass_odd (marks : List Mark) (single : ∀ rest, marks ≠ .char '*' :: rest) :
    leavesClass true marks = true := by
  cases marks with
  | nil => rfl
  | cons mark rest =>
    rw [leavesClass_cons _ _ fun same => single rest (by rw [same])]
    rfl

/-! ## Replacements that take pairs -/

theorem leavesClass_innerDoubleStars (odd : Bool) (marks : List Mark) :
    leavesClass odd (innerDoubleStars marks) = leavesClass odd marks := by
  fun_induction innerDoubleStars marks generalizing odd with
  | case1 rest ih => simp [leavesClass, isClass, ih]
  | case2 mark rest _ ih => exact leavesClass_congr odd mark _ _ ih
  | case3 => rfl

theorem leavesClass_leadingDoubleStar (marks : List Mark) :
    leavesClass false (leadingDoubleStar marks) = leavesClass false marks := by
  fun_cases leadingDoubleStar marks with
  | case1 rest => simp [leavesClass, isClass]
  | case2 => rfl

theorem leavesClass_trailingDoubleStar (odd : Bool) (marks : List Mark) :
    leavesClass odd (trailingDoubleStar marks) = leavesClass odd marks := by
  fun_induction trailingDoubleStar marks generalizing odd with
  | case1 rest => simp [leavesClass, isClass]
  | case2 rest _ ih => exact leavesClass_congr odd _ _ _ ih
  | case3 mark rest _ ih => exact leavesClass_congr odd mark _ _ ih
  | case4 => rfl

theorem isClass_ofChar (c : Char) : (ofChar c).isClass = decide (c = '?') := by
  by_cases special : isSpecial c = true
  · have other : c ≠ '?' := by
      rintro rfl
      cases special
    simp [ofChar, special, isClass, other]
  · by_cases question : c = '?'
    · subst question
      rfl
    · simp [ofChar, special, question, isClass]

theorem leavesClass_ofChar (text : List Char) :
    leavesClass false (text.map ofChar) = hasNameWildcard text := by
  have starred (c : Char) : ofChar c = .char '*' ↔ c = '*' := ofChar_eq_char c '*' rfl (by decide)
  fun_induction hasNameWildcard text with
  | case1 rest ih => exact ih
  | case2 c rest single ih =>
    by_cases star : c = '*'
    · subst star
      have left : leavesClass true (rest.map ofChar) = true := by
        refine leavesClass_odd _ fun more same => ?_
        obtain ⟨d, others, rfl, first, _⟩ := List.map_eq_cons_iff.mp same
        exact single others rfl (by rw [(starred d).mp first])
      exact left
    · rw [List.map_cons, leavesClass_cons _ _ (mt (starred c).mp star), isClass_ofChar, ih]
      simp [star]
  | case3 => rfl

/-! ## Replacements of single stars -/

/-- A class, or a star that will be one. -/
def isWild (mark : Mark) : Bool := mark.isClass || mark matches .char '*'

theorem isWild_of_ne (mark : Mark) (other : mark ≠ .char '*') : mark.isWild = mark.isClass := by
  unfold isWild
  split
  next => exact absurd rfl other
  next => exact Bool.or_false _

theorem any_holdDoubleStars (marks : List Mark) :
    (holdDoubleStars marks).any isWild = leavesClass false marks := by
  fun_induction holdDoubleStars marks with
  | case1 rest ih =>
    have held : heldDoubleStar.any isWild = false := rfl
    rw [List.any_append, held, Bool.false_or, ih]
    rfl
  | case2 mark rest single ih =>
    rw [List.any_cons, ih]
    by_cases star : mark = .char '*'
    · subst star
      exact (leavesClass_odd rest fun more same => single more rfl same).symm
    · rw [leavesClass_cons _ _ star, isWild_of_ne mark star, Bool.false_or]
  | case3 => rfl

theorem any_starSegments (marks : List Mark) :
    (starSegments marks).any isWild = marks.any isWild := by
  fun_induction starSegments marks with
  | case1 rest ih => simp [isWild, isClass, ih]
  | case2 rest => simp [isWild, isClass]
  | case3 rest _ _ ih => rw [List.any_cons, ih, ← List.any_cons]
  | case4 mark rest _ _ ih => rw [List.any_cons, ih, List.any_cons]
  | case5 => rfl

theorem any_stars (marks : List Mark) : (stars marks).any isClass = marks.any isWild := by
  rw [stars, List.any_map]
  congr 1
  funext mark
  cases mark with
  | char c => by_cases star : c = '*' <;> simp [isWild, isClass, star]
  | _ => rfl

theorem any_releaseDoubleStars (marks : List Mark) :
    (releaseDoubleStars marks).any isClass = marks.any isClass := by
  fun_induction releaseDoubleStars marks with
  | case1 rest ih => simp [isClass, ih]
  | case2 mark rest _ ih => rw [List.any_cons, ih, List.any_cons]
  | case3 => rfl

/-- Pattern text has a class in its expression exactly if it has a wildcard for a name. -/
theorem any_ofText (text : List Char) :
    (ofText text).any isClass = hasNameWildcard (unescape text) := by
  rw [ofText, closeWildcards, any_releaseDoubleStars, any_stars, any_starSegments,
    any_holdDoubleStars, leavesClass_trailingDoubleStar, openWildcards,
    leavesClass_leadingDoubleStar, leavesClass_innerDoubleStars, ofChar_text, leavesClass_ofChar]

end Mark
end IgnoreRules.Pattern
