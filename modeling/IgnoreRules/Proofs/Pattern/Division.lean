import IgnoreRules.Pattern.Brackets
import IgnoreRules.Proofs.Regex.ClassReading

/-!
# The division of a text at its brackets

One reading of a text from left to right takes every backslash together with the character behind
it, which is escaped. So whether a character is escaped depends on all that stands before it, and
what is said below about a stretch of text is said behind a front, the text up to it.

A division of a text loses nothing, cuts at no escaped bracket and passes over no bracket where it
should have cut. Each cut is then the first that is possible, which leaves one division, and it is
the one that is scanned.
-/

namespace IgnoreRules.Pattern

/-- A character is escaped if this is what stands before it. -/
def escapesNext (front : List Char) : Bool :=
  front.foldl (fun escaped c => c = '\\' && !escaped) false

theorem escapesNext_concat (front : List Char) (c : Char) :
    escapesNext (front ++ [c]) = (c = '\\' && !escapesNext front) := by
  simp [escapesNext]

/-- Behind `front`, `text` holds no `mark` that is not escaped. -/
def Guards (mark : Char) (front text : List Char) : Prop :=
  ∀ left right, text = left ++ mark :: right → escapesNext (front ++ left) = true

theorem Guards.concat {mark : Char} {front text : List Char} (guards : Guards mark front text)
    (c : Char) (escaped : c = mark → escapesNext (front ++ text) = true) :
    Guards mark front (text ++ [c]) := by
  intro left right same
  rcases List.eq_nil_or_concat right with rfl | ⟨right, d, rfl⟩
  · obtain ⟨rfl, last⟩ := List.append_inj' same rfl
    exact escaped (List.cons.inj last).1
  · rw [List.concat_eq_append, ← List.cons_append, ← List.append_assoc] at same
    exact guards left right (List.append_inj' same rfl).1

/-- Behind `front`, `text` goes on to its first `mark` that is not escaped. -/
structure Reaches (mark : Char) (front text : List Char) : Prop where
  guards : Guards mark front text
  unescaped : escapesNext (front ++ text) = false

namespace Reaches

theorem nil (mark : Char) (front : List Char) (unescaped : escapesNext front = false) :
    Reaches mark front [] where
  guards left right same := by simp at same
  unescaped := by simpa using unescaped

/-- A backslash takes the character after it along. -/
theorem escape {mark : Char} {front text : List Char} (reaches : Reaches mark front text)
    (other : mark ≠ '\\') (c : Char) : Reaches mark front (text ++ ['\\'] ++ [c]) := by
  have escaped : escapesNext (front ++ (text ++ ['\\'])) = true := by
    rw [← List.append_assoc, escapesNext_concat, reaches.unescaped]
    rfl
  refine ⟨?_, ?_⟩
  · apply Guards.concat
    · exact reaches.guards.concat '\\' fun same => absurd same.symm other
    · exact fun _ => escaped
  · rw [← List.append_assoc, escapesNext_concat, escaped]
    simp

theorem concat {mark : Char} {front text : List Char} (reaches : Reaches mark front text)
    (c : Char) (other : c ≠ mark) (plain : c ≠ '\\') : Reaches mark front (text ++ [c]) := by
  refine ⟨reaches.guards.concat c fun same => absurd same other, ?_⟩
  rw [← List.append_assoc, escapesNext_concat]
  simp [plain]

/-- The first mark of a text is at one place only. -/
theorem unique {mark : Char} {front left right other more : List Char}
    (reaches : Reaches mark front left) (reachesToo : Reaches mark front other)
    (same : left ++ mark :: right = other ++ mark :: more) : left = other ∧ right = more := by
  -- If one of the two were longer, the mark behind the other would be escaped.
  rcases List.append_eq_append_iff.mp same with ⟨extra, longer, split⟩ | ⟨extra, longer, split⟩
  · cases extra with
    | nil => exact ⟨by simpa using longer.symm, (List.cons.inj split).2⟩
    | cons c extra =>
      obtain ⟨rfl, _⟩ := List.cons.inj split
      have escaped := reachesToo.guards left extra longer
      simp [reaches.unescaped] at escaped
  · cases extra with
    | nil => exact ⟨by simpa using longer, (List.cons.inj split).2.symm⟩
    | cons c extra =>
      obtain ⟨rfl, _⟩ := List.cons.inj split
      have escaped := reaches.guards other extra longer
      simp [reachesToo.unescaped] at escaped

end Reaches

/-- The text of a bracket expression and of what stands before it. -/
def Piece.text (piece : Piece) : List Char := piece.before ++ '[' :: piece.contents ++ [']']

/-- Behind `front`, a piece has both its brackets where they have to be. -/
structure Piece.CutBehind (front : List Char) (piece : Piece) : Prop where
  before : Reaches '[' front piece.before
  contents : Reaches ']' (front ++ piece.before ++ ['[']) piece.contents

namespace Division

/-- The text that is divided. -/
def text (division : Division) : List Char :=
  division.pieces.flatMap Piece.text ++ division.remainder

/-- Behind `front`, no bracket that is not escaped is closed by one that is not. -/
def Uncut (front text : List Char) : Prop :=
  ∀ left inside right, text = left ++ '[' :: inside ++ ']' :: right →
    escapesNext (front ++ left) = false → escapesNext (front ++ left ++ '[' :: inside) = true

/-- Behind `front`, a text is divided at its brackets. -/
structure Divides (front text : List Char) (division : Division) : Prop where
  lossless : division.text = text
  cut : ∀ done piece later, division.pieces = done ++ piece :: later →
    piece.CutBehind (front ++ done.flatMap Piece.text)
  uncut : Uncut (front ++ division.pieces.flatMap Piece.text) division.remainder

theorem Divides.nil {front text : List Char} (uncut : Uncut front text) :
    Divides front text ⟨[], text⟩ where
  lossless := rfl
  cut done piece later same := by simp at same
  uncut := by simpa using uncut

theorem Divides.cons {front text : List Char} {piece : Piece} {division : Division}
    (first : piece.CutBehind front) (divides : Divides (front ++ piece.text) text division) :
    Divides front (piece.text ++ text) (cons piece division) where
  lossless := by
    rw [← divides.lossless]
    simp [Division.text, Division.cons]
  cut done other later same := by
    cases done with
    | nil =>
      obtain ⟨rfl, _⟩ := List.cons.inj same
      simpa using first
    | cons earlier done =>
      obtain ⟨rfl, rest⟩ := List.cons.inj same
      simpa using divides.cut done other later rest
  uncut := by simpa [Division.cons] using divides.uncut

/-! ## There is one division -/

/-- A division begins with its first piece and goes on with the division of the rest. -/
private theorem Divides.head {front text : List Char} {piece : Piece} {pieces : List Piece}
    {remainder : List Char} (divides : Divides front text ⟨piece :: pieces, remainder⟩) :
    piece.CutBehind front ∧ ∃ rest, text = piece.text ++ rest ∧
      Divides (front ++ piece.text) rest ⟨pieces, remainder⟩ := by
  have first := divides.cut [] piece pieces rfl
  refine ⟨by simpa using first, Division.text ⟨pieces, remainder⟩, ?_, rfl, ?_, ?_⟩
  · rw [← divides.lossless]
    simp [Division.text]
  · intro done other later same
    have cut := divides.cut (piece :: done) other later (by simpa using same)
    simpa using cut
  · simpa using divides.uncut

/-- What can be cut is not left uncut. -/
private theorem not_uncut {front text : List Char} {piece : Piece} (cut : piece.CutBehind front) :
    ¬Uncut front (piece.text ++ text) := by
  intro uncut
  have escaped := uncut piece.before piece.contents text (by simp [Piece.text])
    cut.before.unescaped
  rw [List.append_cons, cut.contents.unescaped] at escaped
  cases escaped

private theorem Divides.not_cons {front text : List Char} {piece : Piece} {pieces : List Piece}
    {remainder rest : List Char} (whole : Divides front text ⟨[], remainder⟩) :
    ¬Divides front text ⟨piece :: pieces, rest⟩ := by
  intro divides
  obtain ⟨cut, behind, rfl, _⟩ := divides.head
  obtain rfl : remainder = piece.text ++ behind := by simpa [Division.text] using whole.lossless
  exact not_uncut cut (by simpa using whole.uncut)

/-- Two pieces that begin one text are the same. -/
private theorem piece_unique {front text more : List Char} {piece other : Piece}
    (cut : piece.CutBehind front) (cutToo : other.CutBehind front)
    (same : piece.text ++ text = other.text ++ more) : piece = other ∧ text = more := by
  obtain ⟨before, contents⟩ := piece
  obtain ⟨beforeToo, contentsToo⟩ := other
  simp only [Piece.text, List.append_assoc, List.cons_append, List.nil_append] at same
  obtain ⟨rfl, inside⟩ := cut.before.unique cutToo.before same
  obtain ⟨rfl, rest⟩ := cut.contents.unique cutToo.contents inside
  exact ⟨rfl, rest⟩

theorem Divides.unique {front text : List Char} {first second : Division}
    (divides : Divides front text first) (dividesToo : Divides front text second) :
    first = second := by
  obtain ⟨pieces, remainder⟩ := first
  obtain ⟨others, rest⟩ := second
  induction pieces generalizing front text others with
  | nil =>
    cases others with
    | nil =>
      have same := divides.lossless.trans dividesToo.lossless.symm
      simpa [Division.text] using same
    | cons other others => exact absurd dividesToo divides.not_cons
  | cons piece pieces ih =>
    cases others with
    | nil => exact absurd divides dividesToo.not_cons
    | cons other others =>
      obtain ⟨cut, behind, rfl, further⟩ := divides.head
      obtain ⟨cutToo, behindToo, same, furtherToo⟩ := dividesToo.head
      obtain ⟨rfl, rfl⟩ := piece_unique cut cutToo same
      have alike := ih further others furtherToo
      simpa using alike

/-! ## Scanning finds it -/

/-- Text without an opening bracket has nothing to cut. -/
private theorem uncut_of_guards {front text : List Char} (guards : Guards '[' front text) :
    Uncut front text := by
  intro left inside right same unescaped
  have escaped := guards left (inside ++ ']' :: right) (by simpa using same)
  simp [unescaped] at escaped

/-- A bracket expression that is never closed is not cut. -/
private theorem uncut_of_open {front before contents : List Char}
    (guards : Guards '[' front before)
    (guardsToo : Guards ']' (front ++ before ++ ['[']) contents) :
    Uncut front (before ++ '[' :: contents) := by
  intro left inside right same unescaped
  have closing (more : List Char) (longer : left ++ '[' :: inside = before ++ '[' :: more)
      (rest : contents = more ++ ']' :: right) :
      escapesNext (front ++ left ++ '[' :: inside) = true := by
    have escaped := guardsToo more right rest
    rwa [List.append_assoc, longer, List.append_cons before, ← List.append_assoc,
      ← List.append_assoc]
  rw [List.append_assoc, List.append_eq_append_iff] at same
  rcases same with ⟨extra, longer, split⟩ | ⟨extra, longer, split⟩
  · subst longer
    cases extra with
    | nil => exact closing inside (by simp) (List.cons.inj split).2
    | cons c extra =>
      obtain ⟨rfl, rest⟩ := List.cons.inj split
      exact closing (extra ++ '[' :: inside) (by simp) (by simpa using rest)
  · subst longer
    cases extra with
    | nil => exact closing inside (by simp) (List.cons.inj split).2.symm
    | cons c extra =>
      obtain ⟨rfl, _⟩ := List.cons.inj split
      have escaped := guards left extra rfl
      simp [unescaped] at escaped

/-- The text that a scan has passed since the last bracket expression. -/
def passed (before : List Char) : Option (List Char) → List Char
  | none => before.reverse
  | some contents => before.reverse ++ '[' :: contents.reverse

/-- Where a scan stands no character is escaped, and it has cut where it could. -/
def Ready (front before : List Char) : Option (List Char) → Prop
  | none => Reaches '[' front before.reverse
  | some contents => Piece.CutBehind front ⟨before.reverse, contents.reverse⟩

private theorem divides_scan (front before : List Char) (mode : Option (List Char))
    (text : List Char) (inLine : '\n' ∉ text) (ready : Ready front before mode) :
    Divides front (passed before mode ++ text) (scan before mode text) := by
  -- Every step leaves the scan behind a character that escapes nothing, and only a bracket
  -- expression that is closed moves the front.
  fun_induction scan before mode text generalizing front with
  | case1 => simp at inLine
  | case2 before c rest other ih =>
    have further : Ready front (c :: '\\' :: before) none := by
      simpa [Ready] using ready.escape (by decide) c
    simpa [passed] using ih front (fun feed => inLine (by simp [feed])) further
  | case3 before =>
    have alone : Guards '[' front (before.reverse ++ ['\\']) :=
      ready.guards.concat '\\' (by simp)
    exact .nil (uncut_of_guards alone)
  | case4 before rest ih =>
    have opened : Ready front before (some []) :=
      ⟨ready, .nil ']' _ (escapesNext_concat _ '[')⟩
    simpa [passed] using ih front (fun feed => inLine (by simp [feed])) opened
  | case5 before c rest escape lone open_ ih =>
    have further : Ready front (c :: before) none := by
      simpa [Ready] using ready.concat c open_ (Regex.ne_backslash escape lone)
    simpa [passed] using ih front (fun feed => inLine (by simp [feed])) further
  | case6 before => simpa [passed] using .nil (uncut_of_guards ready.guards)
  | case7 => simp at inLine
  | case8 before contents c rest _ ih =>
    have further := ready.contents.escape (by decide) c
    have inside : Ready front before (some (c :: '\\' :: contents)) :=
      ⟨ready.before, by simpa using further⟩
    simpa [passed] using ih front (fun feed => inLine (by simp [feed])) inside
  | case9 before contents =>
    have alone := ready.contents.guards.concat '\\' (by simp)
    simpa [passed] using Divides.nil (uncut_of_open ready.before.guards alone)
  | case10 before contents rest ih =>
    let piece : Piece := ⟨before.reverse, contents.reverse⟩
    have closed : escapesNext (front ++ piece.text) = false := by
      rw [Piece.text, ← List.append_assoc, escapesNext_concat]
      rfl
    have behind := ih (front ++ piece.text) (fun feed => inLine (by simp [feed]))
      (.nil '[' _ closed)
    simpa [passed, piece, Piece.text] using Divides.cons ready behind
  | case11 before contents c rest escape lone closed ih =>
    have further := ready.contents.concat c closed (Regex.ne_backslash escape lone)
    have inside : Ready front before (some (c :: contents)) :=
      ⟨ready.before, by simpa using further⟩
    simpa [passed] using ih front (fun feed => inLine (by simp [feed])) inside
  | case12 before contents =>
    simpa [passed] using Divides.nil (uncut_of_open ready.before.guards ready.contents.guards)

/-- A text without line feeds is divided in one way only, and scanning divides it so. -/
theorem divides_iff (text : List Char) (inLine : '\n' ∉ text) (division : Division) :
    Divides [] text division ↔ division = ofText text := by
  have scanned : Divides [] text (ofText text) :=
    divides_scan [] [] none text inLine (.nil '[' [] rfl)
  constructor
  · exact fun divides => divides.unique scanned
  · rintro rfl
    exact scanned

/-- An escaped bracket, one within another and one that is never closed. -/
theorem divides_nested :
    '\n' ∉ "\\[a[\\][b]c]\\\\[d\\".toList ∧
      ∀ division, Divides [] "\\[a[\\][b]c]\\\\[d\\".toList division ↔
        division = ⟨[⟨"\\[a".toList, "\\][b".toList⟩], "c]\\\\[d\\".toList⟩ := by
  have inLine : '\n' ∉ "\\[a[\\][b]c]\\\\[d\\".toList := by decide
  have scanned : ofText "\\[a[\\][b]c]\\\\[d\\".toList =
      ⟨[⟨"\\[a".toList, "\\][b".toList⟩], "c]\\\\[d\\".toList⟩ := by decide
  refine ⟨inLine, fun division => ?_⟩
  rw [divides_iff _ inLine division, scanned]

end Division
end IgnoreRules.Pattern
