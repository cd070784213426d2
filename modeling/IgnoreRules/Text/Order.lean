/-!
# The order of texts

Texts are ordered by their code points, from the first on; a text comes before those that
it begins.
-/

namespace IgnoreRules.Text

/-- A text comes before another, or is equal to it. -/
def precedes : List Char → List Char → Bool
  | [], _ => true
  | _ :: _, [] => false
  | a :: left, b :: right =>
    if a.toNat = b.toNat then precedes left right else a.toNat < b.toNat

theorem precedes_trans (first second third : List Char) (before : precedes first second = true)
    (after : precedes second third = true) : precedes first third = true := by
  induction first generalizing second third with
  | nil => rfl
  | cons a first ih =>
    cases second with
    | nil => cases before
    | cons b second =>
      cases third with
      | nil => cases after
      | cons c third =>
        simp only [precedes] at before after ⊢
        split at before
        next same =>
          split at after
          next sameToo => rw [if_pos (same.trans sameToo), ih second third before after]
          next other => rwa [same, if_neg other]
        next other =>
          simp only [decide_eq_true_eq] at before
          split at after
          next same => rwa [← same, if_neg other, decide_eq_true_eq]
          next =>
            simp only [decide_eq_true_eq] at after
            rw [if_neg (by omega), decide_eq_true_eq]
            omega

theorem precedes_total (first second : List Char) :
    (precedes first second || precedes second first) = true := by
  induction first generalizing second with
  | nil => rfl
  | cons a first ih =>
    cases second with
    | nil => rfl
    | cons b second =>
      simp only [precedes]
      by_cases same : a.toNat = b.toNat
      · simpa [same] using ih second
      · simp only [same, Ne.symm same, if_false, Bool.or_eq_true, decide_eq_true_eq]
        omega

theorem precedes_antisymm (first second : List Char) (before : precedes first second = true)
    (after : precedes second first = true) : first = second := by
  induction first generalizing second with
  | nil =>
    cases second with
    | nil => rfl
    | cons => cases after
  | cons a first ih =>
    cases second with
    | nil => cases before
    | cons b second =>
      simp only [precedes] at before after
      by_cases same : a.toNat = b.toNat
      · rw [if_pos same] at before
        rw [if_pos same.symm] at after
        rw [Char.toNat_inj.mp same, ih second before after]
      · rw [if_neg same, decide_eq_true_eq] at before
        rw [if_neg (Ne.symm same), decide_eq_true_eq] at after
        omega

end IgnoreRules.Text
