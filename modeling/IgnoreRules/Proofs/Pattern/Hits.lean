import IgnoreRules.Proofs.Pattern.Shape
import IgnoreRules.Proofs.Regex.Matching

/-!
# What a rule hits

A match of a rule starts with a separator. It ends with one as well or, unless the rule is for
directories only, at the end of the path. Between them stands what the pieces of the rule match.
What a mark matches depends neither on its place nor on the text behind it.
-/

namespace IgnoreRules.Pattern

@[simp] theorem matches_separator (position : Nat) (text after : List Char) :
    separator.Matches position text after ↔ text = ['/'] := by
  simp [separator, Regex.Matches]

@[simp] theorem contains_notSeparator (c : Char) : notSeparator.contains c = (c != '/') := by
  have narrow := Regex.CharClass.contains_single '/' c
  simp only [Regex.CharClass.contains, Regex.CharClass.single, Bool.bne_false] at narrow
  simp only [Regex.CharClass.contains, notSeparator, narrow, bne, beq_true]

private theorem matches_some (set : Regex.CharClass) (c : Char)
    (excludes : ∀ d, set.contains d = (d != c)) (position : Nat) (text after : List Char) :
    (Regex.seq (.one set) (.many set)).Matches position text after ↔ text ≠ [] ∧ c ∉ text := by
  cases text with
  | nil => simp [Regex.Matches]
  | cons d text =>
    simp only [Regex.Matches, excludes, bne_iff_ne]
    constructor
    · rintro ⟨_, rest, same, ⟨e, rfl, other⟩, others⟩
      obtain ⟨rfl, rfl⟩ := List.cons.inj same
      have absent : c ∉ text := fun member => others c member rfl
      exact ⟨by simp, by simp [absent, Ne.symm other]⟩
    · rintro ⟨_, absent⟩
      simp only [List.mem_cons, not_or] at absent
      refine ⟨[d], text, rfl, ⟨d, rfl, Ne.symm absent.1⟩, ?_⟩
      rintro e member rfl
      exact absent.2 member

theorem matches_someText (position : Nat) (text after : List Char) :
    someText.Matches position text after ↔ text ≠ [] ∧ '\n' ∉ text :=
  matches_some _ _ Regex.CharClass.contains_anyInLine position text after

private theorem matches_many (set : Regex.CharClass) (c : Char)
    (excludes : ∀ d, set.contains d = (d != c)) (position : Nat) (text after : List Char) :
    (Regex.many set).Matches position text after ↔ c ∉ text := by
  simp only [Regex.Matches, excludes, bne_iff_ne]
  constructor
  · exact fun others member => others c member rfl
  · rintro absent d member rfl
    exact absent member

namespace Mark

/-- The texts that a mark stands for. -/
def Accepts : Mark → List Char → Prop
  | .char c, text => text = [c]
  | .escaped c _, text => text = [c]
  | .nameChar, text => ∃ c, text = [c] ∧ c ≠ '/'
  | .innerPath, text => text = ['/'] ∨
      ∃ path, text = '/' :: (path ++ ['/']) ∧ path ≠ [] ∧ '\n' ∉ path
  | .leadingPath, text => text = [] ∨ ∃ path, text = path ++ ['/'] ∧ path ≠ [] ∧ '\n' ∉ path
  | .trailingPath, text => text = [] ∨ ∃ path, text = '/' :: path ∧ path ≠ [] ∧ '\n' ∉ path
  | .wholeName, text => text ≠ [] ∧ '/' ∉ text
  | .namePart, text => '/' ∉ text
  | .anyText, text => '\n' ∉ text

/-- The texts that marks stand for, one after the other. -/
def AcceptsAll : List Mark → List Char → Prop
  | [], text => text = []
  | mark :: marks, text =>
    ∃ left right, text = left ++ right ∧ mark.Accepts left ∧ AcceptsAll marks right

theorem matches_mark (mark : Mark) (position : Nat) (text after : List Char) :
    mark.regex.Matches position text after ↔ mark.Accepts text := by
  -- Two of the three marks for paths end with a separator and two start with one.
  have upTo (start : Nat) (found : List Char) :
      (Regex.seq someText separator).Matches start found after ↔
        ∃ path, found = path ++ ['/'] ∧ path ≠ [] ∧ '\n' ∉ path := by
    simp only [Regex.Matches, matches_someText, matches_separator]
    constructor
    · rintro ⟨path, _, rfl, some, rfl⟩
      exact ⟨path, rfl, some⟩
    · rintro ⟨path, rfl, some⟩
      exact ⟨path, _, rfl, some, rfl⟩
  have behind (inner : Regex) (spec : List Char → Prop)
      (within : ∀ start found, inner.Matches start found after ↔ spec found) :
      (Regex.seq separator inner).Matches position text after ↔
        ∃ rest, text = '/' :: rest ∧ spec rest := by
    simp only [Regex.Matches, matches_separator, within]
    constructor
    · rintro ⟨_, rest, rfl, rfl, matched⟩
      exact ⟨rest, rfl, matched⟩
    · rintro ⟨rest, rfl, matched⟩
      exact ⟨_, rest, rfl, rfl, matched⟩
  cases mark with
  | char c | escaped c => simp [Mark.regex, Regex.Matches, Accepts]
  | nameChar => simp [Mark.regex, Regex.Matches, Accepts]
  | innerPath =>
    rw [Mark.regex, Regex.Matches, matches_separator, behind _ _ upTo, Accepts]
    refine or_congr_right ?_
    constructor
    · rintro ⟨_, rfl, path, rfl, some⟩
      exact ⟨path, rfl, some⟩
    · rintro ⟨path, rfl, some⟩
      exact ⟨_, rfl, path, rfl, some⟩
  | leadingPath => rw [Mark.regex, Regex.Matches, upTo, Accepts, Regex.Matches]
  | trailingPath =>
    rw [Mark.regex, Regex.Matches, behind _ _ fun start found => matches_someText start found after,
      Accepts, Regex.Matches]
  | wholeName => exact matches_some _ _ contains_notSeparator position text after
  | namePart => exact matches_many _ _ contains_notSeparator position text after
  | anyText => exact matches_many _ _ Regex.CharClass.contains_anyInLine position text after

/-- The expressions of marks match what the marks stand for. -/
theorem matches_marks (marks : List Mark) (position : Nat) (text after : List Char) :
    (Regex.sequence (marks.map regex)).Matches position text after ↔ AcceptsAll marks text := by
  induction marks generalizing position text with
  | nil => exact Iff.rfl
  | cons mark marks ih =>
    rw [List.map_cons, Regex.matches_sequence_cons]
    simp only [matches_mark, ih, AcceptsAll]

theorem acceptsAll_append (marks more : List Mark) (text : List Char) :
    AcceptsAll (marks ++ more) text ↔
      ∃ left right, text = left ++ right ∧ AcceptsAll marks left ∧ AcceptsAll more right := by
  induction marks generalizing text with
  | nil =>
    constructor
    · exact fun accepted => ⟨[], text, rfl, rfl, accepted⟩
    · rintro ⟨_, _, rfl, rfl, accepted⟩
      exact accepted
  | cons mark marks ih =>
    simp only [List.cons_append, AcceptsAll, ih]
    constructor
    · rintro ⟨first, _, rfl, accepted, left, right, rfl, others, last⟩
      exact ⟨first ++ left, right, by simp, ⟨first, left, rfl, accepted, others⟩, last⟩
    · rintro ⟨_, right, rfl, ⟨first, left, rfl, accepted, others⟩, last⟩
      exact ⟨first, left ++ right, by simp, accepted, left, right, rfl, others, last⟩

end Mark

/-! ## Places -/

/-- A piece matches a text wherever it stands and whatever follows it. -/
theorem BodyPiece.matches_anywhere {piece : Regex} (body : BodyPiece piece) (position start : Nat)
    (text after rest : List Char) (matched : piece.Matches position text after) :
    piece.Matches start text rest := by
  cases body with
  | one => exact matched
  | many => exact matched
  | some => exact matched
  | inner | leading | trailing =>
    exact (Mark.matches_mark _ start text rest).mpr
      ((Mark.matches_mark _ position text after).mp matched)

theorem matches_pieces_anywhere (pieces : List Regex)
    (body : ∀ piece ∈ pieces, BodyPiece piece) (position start : Nat) (text after rest : List Char)
    (matched : (Regex.sequence pieces).Matches position text after) :
    (Regex.sequence pieces).Matches start text rest := by
  induction pieces generalizing position start text with
  | nil => exact matched
  | cons piece pieces ih =>
    obtain ⟨left, right, rfl, first, others⟩ := (Regex.matches_sequence_cons _ _ _ _ _).mp matched
    exact (Regex.matches_sequence_cons _ _ _ _ _).mpr ⟨left, right, rfl,
      (body piece (by simp)).matches_anywhere _ _ _ _ _ first,
      ih (fun other member => body other (by simp [member])) _ _ _ others⟩

end IgnoreRules.Pattern

namespace IgnoreRules.Rule

open Pattern
open Regex (sequence endsHere)

theorem matches_opening (rooted : Bool) (pieces : List Regex) (position : Nat)
    (text after : List Char) :
    (sequence (opening rooted ++ pieces)).Matches position text after ↔
      (rooted = true → position = 0) ∧ ∃ rest, text = '/' :: rest ∧
        (sequence pieces).Matches (position + 1) rest after := by
  have separated (start : Nat) (found : List Char) :
      (sequence (separator :: pieces)).Matches start found after ↔
        ∃ rest, found = '/' :: rest ∧ (sequence pieces).Matches (start + 1) rest after := by
    rw [Regex.matches_sequence_cons]
    constructor
    · rintro ⟨left, right, rfl, matched, others⟩
      obtain rfl := (matches_separator _ _ _).mp matched
      exact ⟨right, rfl, others⟩
    · rintro ⟨rest, rfl, others⟩
      exact ⟨['/'], rest, rfl, (matches_separator _ _ _).mpr rfl, others⟩
  cases rooted with
  | false => simpa [opening] using separated position text
  | true =>
    change (sequence (.atStart :: separator :: pieces)).Matches position text after ↔ _
    rw [Regex.matches_sequence_cons]
    constructor
    · rintro ⟨left, right, rfl, ⟨rfl, start⟩, others⟩
      exact ⟨fun _ => start, (separated _ _).mp others⟩
    · rintro ⟨start, others⟩
      exact ⟨[], text, rfl, ⟨rfl, start rfl⟩, (separated _ _).mpr others⟩

theorem matches_closing (directoryOnly : Bool) (position : Nat) (text after : List Char) :
    (sequence (closing directoryOnly)).Matches position text after ↔
      text = ['/'] ∨ (directoryOnly = false ∧ text = [] ∧ endsHere after = true) := by
  cases directoryOnly with
  | true =>
    change separator.Matches position text after ↔ _
    simp
  | false =>
    change Regex.Matches .atEnd position text after ∨ separator.Matches position text after ↔ _
    simp [Regex.Matches, or_comm]

/-- What a whole rule matches. -/
theorem matches_whole (rooted directoryOnly : Bool) (pieces : List Regex) (position : Nat)
    (text after : List Char) :
    (sequence (opening rooted ++ pieces ++ closing directoryOnly)).Matches position text after ↔
      (rooted = true → position = 0) ∧ ∃ body last, text = '/' :: (body ++ last) ∧
        (sequence pieces).Matches (position + 1) body (last ++ after) ∧
        (last = ['/'] ∨ (directoryOnly = false ∧ last = [] ∧ endsHere after = true)) := by
  rw [List.append_assoc, matches_opening]
  refine and_congr_right fun _ => ?_
  constructor
  · rintro ⟨rest, rfl, matched⟩
    obtain ⟨body, last, rfl, inner, ended⟩ := (Regex.matches_sequence_append _ _ _ _ _).mp matched
    exact ⟨body, last, rfl, inner, (matches_closing _ _ _ _).mp ended⟩
  · rintro ⟨body, last, rfl, inner, ended⟩
    exact ⟨body ++ last, rfl, (Regex.matches_sequence_append _ _ _ _ _).mpr
      ⟨body, last, rfl, inner, (matches_closing _ _ _ _).mpr ended⟩⟩

/-- No compiled rule matches the empty text. -/
theorem compile_nonempty [Text.CharacterNames] (pattern : List Char) (regex : Regex)
    (read : Regex.read (compile pattern).source = .ok regex) (position : Nat)
    (text after : List Char) (matched : regex.Matches position text after) : text ≠ [] := by
  obtain ⟨pieces, _, reads⟩ := reads_compile pattern ((readable_iff pattern).mp ⟨regex, read⟩)
  rw [reads.read] at read
  cases read
  obtain ⟨_, body, last, rfl, _⟩ := (matches_whole _ _ _ _ _ _).mp matched
  simp

end IgnoreRules.Rule
