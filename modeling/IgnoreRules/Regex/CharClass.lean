import IgnoreRules.Text.Alphanumeric
import IgnoreRules.Text.Blank
import IgnoreRules.Text.Digit

/-!
# Character classes

A class is a list of items, possibly negated. Single characters, the wild card and
bracket expressions are all classes, so one membership test serves every
one-character step of a match. Ranges are bounded by code points and not by characters,
because an escape may name a surrogate, which no text contains.
-/

namespace IgnoreRules.Regex

/-- The families of characters that have a one-letter escape. -/
inductive Family
  | digit
  | word
  | blank
  deriving DecidableEq, Repr

/-- A character belongs to a family. -/
def Family.contains : Family → Char → Bool
  -- The underscore counts as part of a word.
  | .digit, c => Text.isDecimal c
  | .word, c => Text.isAlphanumeric c || c == '_'
  | .blank, c => Text.isBlank c

/-- One item of a character class. -/
inductive ClassItem
  /-- The code points from `first` to `last`, both included. -/
  | range (first last : Nat)
  | family (members : Family)
  | outside (members : Family)
  deriving DecidableEq, Repr

def ClassItem.contains : ClassItem → Char → Bool
  | .range first last, c => first ≤ c.toNat && c.toNat ≤ last
  | .family members, c => members.contains c
  | .outside members, c => !members.contains c

/-- A set of characters: those that some item covers or, if negated, all others. -/
structure CharClass where
  negated : Bool
  items : List ClassItem
  deriving DecidableEq, Repr

namespace CharClass

def contains (set : CharClass) (c : Char) : Bool :=
  set.items.any (·.contains c) != set.negated

def single (c : Char) : CharClass := ⟨false, [.range c.toNat c.toNat]⟩

/-- Every character but the line feed. -/
def anyInLine : CharClass := ⟨true, [.range '\n'.toNat '\n'.toNat]⟩

@[simp] theorem contains_single (c d : Char) : (single c).contains d = (d == c) := by
  simp only [contains, single, ClassItem.contains, List.any_cons, List.any_nil, Bool.or_false,
    Bool.bne_false]
  rw [Bool.eq_iff_iff]
  simp only [Bool.and_eq_true, decide_eq_true_eq, beq_iff_eq]
  constructor
  · intro bounds
    exact Char.toNat_inj.mp (by omega)
  · intro same
    simp [same]

@[simp] theorem contains_anyInLine (c : Char) : anyInLine.contains c = (c != '\n') := by
  have narrow := contains_single '\n' c
  simp only [contains, single, Bool.bne_false] at narrow
  simp only [contains, anyInLine, narrow, bne, beq_true]

end CharClass
end IgnoreRules.Regex
