import IgnoreRules.Pattern.Rule
import IgnoreRules.Proofs.Pattern.Brackets
import IgnoreRules.Proofs.Pattern.Marks
import IgnoreRules.Proofs.Regex.LargeCodes

/-!
# The shape of compiled rules

A bracket expression is copied as it stands, and an empty one runs on into the text behind it. But
whatever a class swallows, it ends with a bracket that closes some class, and there every fragment
is either untouched or gone as a whole. So a rule that can be read is a separator, pieces that know
neither where they stand nor what follows, and the end assertion or separator of the rule. A rule
without bracket expressions can always be read, and so can every compiled rule, unless a character
code in its brackets is too large.
-/

namespace IgnoreRules.Pattern

open Regex (Lays Reads Token CharClass)

/-- Every character but the separator. -/
def notSeparator : CharClass := ⟨true, [.range '/'.toNat '/'.toNat]⟩

/-- The separator itself. -/
def separator : Regex := .one (.single '/')

/-- At least one character of a line. -/
def someText : Regex := .seq (.one .anyInLine) (.many .anyInLine)

/-- The expression of a mark. -/
def Mark.regex : Mark → Regex
  | .char c => .one (.single c)
  | .escaped c _ => .one (.single c)
  | .nameChar => .one notSeparator
  | .innerPath => .alt separator (.seq separator (.seq someText separator))
  | .leadingPath => .alt .empty (.seq someText separator)
  | .trailingPath => .alt .empty (.seq separator someText)
  | .wholeName => .seq (.one notSeparator) (.many notSeparator)
  | .namePart => .many notSeparator
  | .anyText => .many .anyInLine

theorem special_not_alphanumeric (c : Char) (special : isSpecial c = true) :
    c.isAlphanum = false := by
  simp only [isSpecial, Bool.or_eq_true, decide_eq_true_eq] at special
  rcases special with ((((((((((((h | h) | h) | h) | h) | h) | h) | h) | h) | h) | h) | h) | h) <;>
    subst h <;> rfl

theorem Mark.source_char (c : Char) (other : c ≠ '/') : Mark.source (.char c) = [c] := by
  simp [Mark.source, Mark.text, escapeSeparators, other]

theorem Mark.source_escaped (c : Char) (special : isSpecial c = true) :
    Mark.source (.escaped c special) = ['\\', c] := by
  have other : c ≠ '/' := by
    rintro rfl
    cases special
  simp [Mark.source, Mark.text, escapeSeparators, other]

private theorem ofChar_ordinary (c : Char) (ordinary : isSpecial c = false) (question : c ≠ '?')
    (star : c ≠ '*') : Token.ofChar c = .ok (.piece (.one (.single c))) := by
  simp only [isSpecial, Bool.or_eq_false_iff, decide_eq_false_iff_not] at ordinary
  obtain ⟨⟨⟨⟨⟨⟨⟨⟨⟨⟨⟨⟨_, _⟩, _⟩, brace⟩, _⟩, group⟩, close⟩, plus⟩, dot⟩, escape⟩, start⟩, stop⟩,
    bar⟩ := ordinary
  unfold Token.ofChar
  split <;> simp_all

section Reading

variable [Text.CharacterNames]

/-- A mark reads as its expression. -/
theorem reads_mark (mark : Mark) (settled : mark.Settled) : Reads mark.source [mark.regex] := by
  cases mark with
  | char c =>
    obtain ⟨ordinary, question, star⟩ := settled c rfl
    by_cases separator : c = '/'
    · subst separator
      exact ⟨_, rfl, .piece _⟩
    · refine ⟨_, ?_, .piece _⟩
      have closed : c ≠ '[' := by
        rintro rfl
        cases ordinary
      rw [Mark.source_char c separator,
        Token.scan_character c _ (ofChar_ordinary c ordinary question star) closed]
      simp [Token.scan, Mark.regex, bind, Except.bind, pure, Except.pure]
  | escaped c special =>
    refine ⟨[.piece (.one (.single c))], ?_, .piece _⟩
    simp [Mark.source_escaped, Token.scan, Token.ofEscape, special_not_alphanumeric c special,
      bind, Except.bind, pure, Except.pure]
  | nameChar => exact ⟨_, rfl, .piece _⟩
  -- The groups of these fragments are closed again, in whatever state they are opened.
  | innerPath => exact ⟨_, rfl, fun _ => rfl⟩
  | leadingPath => exact ⟨_, rfl, fun _ => rfl⟩
  | trailingPath => exact ⟨_, rfl, fun _ => rfl⟩
  | wholeName => exact ⟨_, rfl, .some _⟩
  | namePart => exact ⟨_, rfl, .many _⟩
  | anyText => exact ⟨_, rfl, .many _⟩

theorem reads_marks (marks : List Mark) (settled : ∀ mark ∈ marks, mark.Settled) :
    Reads (marks.flatMap Mark.source) (marks.map Mark.regex) := by
  induction marks with
  | nil => exact .nil
  | cons mark marks ih =>
    rw [List.flatMap_cons, List.map_cons]
    exact (reads_mark mark (settled mark (by simp))).append
      (ih fun other member => settled other (by simp [member]))

/-- Pattern text outside bracket expressions reads as its marks. -/
theorem reads_text (text : List Char) :
    Reads (Fragment.ofText text).source ((Mark.ofText text).map Mark.regex) := by
  rw [Mark.ofText_source]
  exact reads_marks _ (Mark.ofText_settled text)

end Reading

/-! ## Text that is met in a class -/

/-- A piece of the text between the prefix and the suffix of a rule. None of them looks at its
position or at what follows it. -/
inductive BodyPiece : Regex → Prop
  | one (set : CharClass) : BodyPiece (.one set)
  | many (set : CharClass) : BodyPiece (.many set)
  | some (set : CharClass) : BodyPiece (.seq (.one set) (.many set))
  | inner : BodyPiece Mark.innerPath.regex
  | leading : BodyPiece Mark.leadingPath.regex
  | trailing : BodyPiece Mark.trailingPath.regex

theorem bodyPiece_mark (mark : Mark) : BodyPiece mark.regex := by
  cases mark <;> constructor

section Passing

variable [Text.CharacterNames]

/-- A part of a source that is read, from a mode, as whole pieces and leaves some mode behind,
whatever follows it. -/
def Leaves (mode : Option (List Char)) (part : List Char) : Prop :=
  ∃ front pieces left, Lays front pieces ∧ (∀ piece ∈ pieces, BodyPiece piece) ∧
    ∀ rest, Token.scan mode (part ++ rest) = (Token.scan left rest).map (front ++ ·)

/-- A part of a source that cannot be read from a mode, whatever follows it. -/
def Breaks (mode : Option (List Char)) (part : List Char) : Prop :=
  ∃ problem, ∀ rest, Token.scan mode (part ++ rest) = .error problem

/-- Text that leaves whole pieces behind or cannot be read, and needs nothing of what follows for
either, whether it is met in a class or not. It may end in a class as well. -/
def Passes (part : List Char) : Prop := ∀ mode, Leaves mode part ∨ Breaks mode part

/-- What is swallowed whole by a class leaves no piece. -/
private theorem leaves_swallowed (mode left : Option (List Char)) (part : List Char)
    (same : ∀ rest, Token.scan mode (part ++ rest) = Token.scan left rest) : Leaves mode part := by
  refine ⟨[], [], left, .nil, by simp, fun rest => ?_⟩
  rw [same]
  cases Token.scan left rest <;> rfl

/-- A class that ends here leaves itself, with the repetition that stands behind it, if it can be
read. -/
private theorem passes_class (mode : Option (List Char)) (part inside repetition : List Char)
    (repeated : List Token) (scanned : Token.scan none repetition = .ok repeated)
    (laid : ∀ set, ∃ piece, BodyPiece piece ∧ Lays (.piece (.one set) :: repeated) [piece])
    (ends : ∀ rest, Token.scan mode (part ++ rest) = (do
      let set ← CharClass.read inside
      return Token.piece (.one set) :: (← Token.scan none (repetition ++ rest)))) :
    Leaves mode part ∨ Breaks mode part := by
  cases read : CharClass.read inside with
  | error problem =>
    refine .inr ⟨problem, fun rest => ?_⟩
    rw [ends, read]
    rfl
  | ok set =>
    obtain ⟨piece, body, lays⟩ := laid set
    refine .inl ⟨_, [piece], none, lays, by simpa using body, fun rest => ?_⟩
    rw [ends, read, Token.scan_append none _ _ _ scanned]
    cases Token.scan none rest <;> rfl

theorem Passes.nil : Passes [] := fun mode => .inl (leaves_swallowed mode mode [] fun _ => rfl)

theorem Passes.append {first second : List Char} (left : Passes first) (right : Passes second) :
    Passes (first ++ second) := by
  intro mode
  rcases left mode with ⟨front, pieces, between, laid, body, onward⟩ | ⟨problem, broken⟩
  · rcases right between with ⟨others, behind, last, laidToo, bodyToo, onwardToo⟩ |
      ⟨problem, broken⟩
    · refine .inl ⟨front ++ others, pieces ++ behind, last, laid.append laidToo, ?_, fun rest => ?_⟩
      · intro piece member
        exact (List.mem_append.mp member).elim (body piece) (bodyToo piece)
      · rw [List.append_assoc, onward, onwardToo]
        cases Token.scan last rest <;> simp [Except.map]
    · refine .inr ⟨problem, fun rest => ?_⟩
      rw [List.append_assoc, onward, broken]
      rfl
  · refine .inr ⟨problem, fun rest => ?_⟩
    rw [List.append_assoc, broken]

theorem passes_mark (mark : Mark) (settled : mark.Settled) : Passes mark.source := by
  intro mode
  cases mode with
  | none =>
    obtain ⟨front, read, laid⟩ := reads_mark mark settled
    exact .inl ⟨front, _, none, laid, by simpa using bodyPiece_mark mark,
      fun other => Token.scan_append none _ other front read⟩
  | some contents =>
    cases mark with
    | char c =>
      obtain ⟨ordinary, _, _⟩ := settled c rfl
      have escape : c ≠ '\\' := by
        rintro rfl
        cases ordinary
      have closed : c ≠ ']' := by
        rintro rfl
        cases ordinary
      by_cases separator : c = '/'
      · subst separator
        exact .inl (leaves_swallowed _ (some ('/' :: '\\' :: contents)) _ fun _ => rfl)
      · rw [Mark.source_char c separator]
        exact .inl (leaves_swallowed _ (some (c :: contents)) _ fun other =>
          Token.scan_member contents c other escape closed)
    | escaped c special =>
      rw [Mark.source_escaped]
      exact .inl (leaves_swallowed _ (some (c :: '\\' :: contents)) _ fun other =>
        Token.scan_escaped_member contents c other)
    -- Fragments with a class of their own close the open one with their bracket.
    | nameChar =>
      exact passes_class _ _ _ [] [] rfl (fun set => ⟨_, .one set, .piece _⟩) fun _ => rfl
    | wholeName =>
      exact passes_class _ _ _ ['+'] [.plus] rfl (fun set => ⟨_, .some set, .some set⟩) fun _ => rfl
    | namePart =>
      exact passes_class _ _ _ ['*'] [.star] rfl (fun set => ⟨_, .many set, .many set⟩) fun _ => rfl
    | innerPath | leadingPath | trailingPath | anyText =>
      exact .inl (leaves_swallowed _ (some _) _ fun _ => rfl)

theorem scan_enclosed (contents text rest : List Char) (enclosed : Enclosed text = true) :
    Token.scan (some contents) (text ++ ']' :: rest) = (do
      let set ← CharClass.read (contents.reverse ++ text)
      return Token.piece (.one set) :: (← Token.scan none rest)) := by
  fun_induction Enclosed text generalizing contents with
  | case1 c text ih =>
    rw [List.cons_append, List.cons_append, Token.scan_escaped_member, ih _ enclosed]
    simp
  | case2 => cases enclosed
  | case3 => cases enclosed
  | case4 c text escape lone closed ih =>
    have plain : c ≠ '\\' := Regex.ne_backslash escape lone
    rw [List.cons_append, Token.scan_member _ _ _ plain closed, ih _ enclosed]
    simp
  | case5 => simp [Token.scan]

/-- A class stays open where nothing closes it. -/
theorem scan_unclosed (contents text : List Char) (enclosed : Enclosed text = true) :
    Token.scan (some contents) text = .error .unclosedClass := by
  fun_induction Enclosed text generalizing contents with
  | case1 c text ih => rw [Token.scan_escaped_member, ih _ enclosed]
  | case2 => cases enclosed
  | case3 => cases enclosed
  | case4 c text escape lone closed ih =>
    have plain : c ≠ '\\' := Regex.ne_backslash escape lone
    rw [Token.scan_member _ _ _ plain closed, ih _ enclosed]
  | case5 => rfl

/-- A bracket expression ends where it does in the pattern, unless its first member is the bracket
at its end. -/
theorem scan_bracket (contents rest : List Char) (enclosed : Enclosed contents = true)
    (some : contents ≠ []) (more : contents ≠ ['^']) :
    Token.scan none ('[' :: contents ++ ']' :: rest) = (do
      let set ← CharClass.read contents
      return Token.piece (.one set) :: (← Token.scan none rest)) := by
  obtain ⟨c, contents, rfl⟩ := List.exists_cons_of_ne_nil some
  by_cases negation : c = '^'
  · subst negation
    have within : Enclosed contents = true := enclosed
    have behind : contents ≠ [] := fun none => more (by rw [none])
    obtain ⟨d, contents, rfl⟩ := List.exists_cons_of_ne_nil behind
    have closed : d ≠ ']' := by
      rintro rfl
      cases within
    rw [List.cons_append, List.cons_append, List.cons_append, Token.scan_negated _ _ closed,
      ← List.cons_append, scan_enclosed ['^'] _ _ within]
    rfl
  · have closed : c ≠ ']' := by
      rintro rfl
      cases enclosed
    rw [List.cons_append, List.cons_append, Token.scan_open _ _ negation closed,
      ← List.cons_append, scan_enclosed [] _ _ enclosed]
    rfl

theorem reads_bracket (contents : List Char) (enclosed : Enclosed contents = true)
    (some : contents ≠ []) (more : contents ≠ ['^']) (set : CharClass)
    (read : CharClass.read contents = .ok set) : Reads ('[' :: contents ++ [']']) [.one set] := by
  refine ⟨[.piece (.one set)], ?_, .piece _⟩
  rw [scan_bracket contents [] enclosed some more, read]
  simp [Token.scan, bind, Except.bind, pure, Except.pure]

theorem passes_bracket (contents : List Char) (enclosed : Enclosed contents = true) :
    Passes ('[' :: contents ++ [']']) := by
  intro mode
  -- Where the bracket ends, in a class or outside, it leaves a class.
  have ended (inside : List Char) (ends : ∀ rest,
      Token.scan mode ('[' :: contents ++ ']' :: rest) = (do
        let set ← CharClass.read inside
        return Token.piece (.one set) :: (← Token.scan none rest))) :
      Leaves mode ('[' :: contents ++ [']']) ∨ Breaks mode ('[' :: contents ++ [']']) := by
    refine passes_class _ _ inside [] [] rfl (fun set => ⟨_, .one set, .piece _⟩) fun rest => ?_
    rw [List.append_assoc]
    exact ends rest
  cases mode with
  | some opened =>
    refine ended (('[' :: opened).reverse ++ contents) fun rest => ?_
    rw [List.cons_append, Token.scan_member _ _ _ (by decide) (by decide),
      scan_enclosed _ _ _ enclosed]
  | none =>
    by_cases empty : contents = []
    · subst empty
      exact .inl (leaves_swallowed _ (some [']']) _ fun rest => by simp [Token.scan])
    · by_cases caret : contents = ['^']
      · subst caret
        exact .inl (leaves_swallowed _ (some [']', '^']) _ fun rest => by simp [Token.scan])
      · exact ended contents fun rest => scan_bracket contents rest enclosed empty caret

end Passing

end IgnoreRules.Pattern

namespace IgnoreRules.Rule

open Pattern
open Regex (Reads Token)

/-! ## Whole rules -/

/-- The pieces that a rule starts with. -/
def opening (rooted : Bool) : List Regex :=
  if rooted then [.atStart, separator] else [separator]

/-- The pieces that a rule ends with. -/
def closing (directoryOnly : Bool) : List Regex :=
  if directoryOnly then [separator] else [.alt .atEnd separator]

def openingSource (rooted : Bool) : List Char :=
  if rooted then "^\\/".toList else "\\/".toList

def closingSource (directoryOnly : Bool) : List Char :=
  if directoryOnly then "\\/".toList else "(?:$|\\/)".toList

/-- What stands between the prefix and the suffix of a rule. -/
def bodySource (division : Division) : List Char :=
  division.pieces.flatMap pieceSource ++ remainderSource division.remainder

theorem assemble_source (pattern : List Char) (outline : Outline) (division : Division) :
    (assemble pattern outline division).source =
      openingSource (assemble pattern outline division).rooted ++ bodySource division ++
        closingSource (assemble pattern outline division).directoryOnly := by
  simp only [assemble, openingSource, bodySource, closingSource, List.append_assoc]

/-- No suffix closes a class. -/
theorem enclosed_closing (directoryOnly : Bool) :
    Enclosed (closingSource directoryOnly) = true := by
  cases directoryOnly <;> rfl

section Reading

variable [Text.CharacterNames]

theorem reads_opening (rooted : Bool) : Reads (openingSource rooted) (opening rooted) := by
  cases rooted
  · exact ⟨_, rfl, .piece _⟩
  · exact ⟨_, rfl, fun _ => rfl⟩

theorem reads_closing (directoryOnly : Bool) :
    Reads (closingSource directoryOnly) (closing directoryOnly) := by
  cases directoryOnly
  · exact ⟨_, rfl, fun _ => rfl⟩
  · exact ⟨_, rfl, .piece _⟩

theorem passes_marks (marks : List Mark) (settled : ∀ mark ∈ marks, mark.Settled) :
    Passes (marks.flatMap Mark.source) := by
  induction marks with
  | nil => exact .nil
  | cons mark marks ih =>
    rw [List.flatMap_cons]
    exact (passes_mark mark (settled mark (by simp))).append
      (ih fun other member => settled other (by simp [member]))

theorem passes_text (text : List Char) : Passes (Fragment.ofText text).source := by
  rw [Mark.ofText_source]
  exact passes_marks _ (Mark.ofText_settled text)

private theorem passes_pieces (pieces : List Piece)
    (enclosed : ∀ piece ∈ pieces, Enclosed piece.contents = true) :
    Passes (pieces.flatMap pieceSource) := by
  induction pieces with
  | nil => exact .nil
  | cons piece pieces ih =>
    rw [List.flatMap_cons, pieceSource, List.append_assoc]
    have bracket := passes_bracket piece.contents (enclosed piece (by simp))
    have first := (passes_text piece.before).append bracket
    have rest := ih fun other member => enclosed other (by simp [member])
    simpa using first.append rest

theorem passes_body (text : List Char) : Passes (bodySource (Division.ofText text)) := by
  rw [bodySource]
  refine (passes_pieces _ (Division.enclosed_contents text)).append ?_
  rw [remainderSource]
  split
  · exact .nil
  · exact passes_text _

/-- Neither the prefix nor the suffix of a rule decides whether its expression can be read: the
body is read as whole pieces, or there is the same error around it whatever they are. -/
theorem reads_body (body : List Char) (passes : Passes body) :
    (∃ pieces, (∀ piece ∈ pieces, BodyPiece piece) ∧ Reads body pieces) ∨
      ∃ problem, ∀ rooted directoryOnly,
        Regex.read (openingSource rooted ++ body ++ closingSource directoryOnly) =
          .error problem := by
  -- An error behind the prefix is one of the whole source.
  have unread (problem : Regex.SyntaxError) (rooted directoryOnly : Bool)
      (broken : Token.scan none (body ++ closingSource directoryOnly) = .error problem) :
      Regex.read (openingSource rooted ++ body ++ closingSource directoryOnly) =
        .error problem := by
    obtain ⟨first, opened, _⟩ := reads_opening rooted
    rw [Regex.read, List.append_assoc, Token.scan_append none _ _ first opened, broken]
    rfl
  rcases passes none with ⟨front, pieces, left, laid, whole, onward⟩ | ⟨problem, broken⟩
  · cases left with
    | none =>
      have alone := onward []
      exact .inl ⟨pieces, whole, front, by simpa [Token.scan, Except.map] using alone, laid⟩
    | some contents =>
      -- The suffix leaves a class open that the body ends in.
      refine .inr ⟨.unclosedClass, fun rooted directoryOnly => unread _ _ _ ?_⟩
      rw [onward, scan_unclosed _ _ (enclosed_closing _)]
      rfl
  · exact .inr ⟨problem, fun rooted directoryOnly => unread _ _ _ (broken _)⟩

/-- Text without brackets is read as whole pieces, whatever it is. -/
theorem reads_plain (text : List Char) :
    ∃ pieces, (∀ piece ∈ pieces, BodyPiece piece) ∧ Reads (bodySource (.plain text)) pieces := by
  change ∃ pieces, _ ∧ Reads ([] ++ remainderSource text) pieces
  rw [List.nil_append, remainderSource]
  split
  · exact ⟨[], by simp, .nil⟩
  · refine ⟨_, ?_, reads_text _⟩
    intro piece member
    obtain ⟨mark, _, rfl⟩ := List.mem_map.mp member
    exact bodyPiece_mark mark

/-- A rule whose body is read as whole pieces is read as its prefix, those pieces, and its
suffix. -/
theorem reads_assemble (pattern : List Char) (outline : Outline) (division : Division)
    (pieces : List Regex) (reads : Reads (bodySource division) pieces) :
    Reads (assemble pattern outline division).source
      (opening (assemble pattern outline division).rooted ++ pieces ++
        closing (assemble pattern outline division).directoryOnly) := by
  rw [assemble_source]
  exact ((reads_opening _).append reads).append (reads_closing _)

/-- A rule with its brackets as ordinary characters can be read, whatever its pattern. -/
theorem read_withoutBrackets (pattern : List Char) :
    ∃ regex, Regex.read (withoutBrackets pattern).source = .ok regex := by
  obtain ⟨pieces, _, reads⟩ := reads_plain (Outline.ofPattern pattern).body
  exact ⟨_, (reads_assemble pattern _ _ pieces reads).read⟩

/-! ### What becomes of the brackets -/

/-- The body of a pattern with its brackets kept is read as whole pieces, or there is an error
around it that depends on nothing but the body. -/
theorem reads_kept (body : List Char) :
    (∃ pieces, (∀ piece ∈ pieces, BodyPiece piece) ∧ Reads (bodySource (.ofText body)) pieces) ∨
      ∃ problem, ∀ pattern, (Outline.ofPattern pattern).body = body →
        Regex.read (withBrackets pattern).source = .error problem := by
  refine (reads_body _ (passes_body body)).imp_right ?_
  rintro ⟨problem, broken⟩
  refine ⟨problem, fun pattern same => ?_⟩
  rw [withBrackets, assemble_source, same]
  exact broken _ _

theorem bracketProblem?_eq_some (pattern : List Char) (problem : Regex.SyntaxError) :
    bracketProblem? pattern = some problem ↔
      Regex.read (withBrackets pattern).source = .error problem ∧ problem ≠ .codeTooLarge := by
  rw [bracketProblem?]
  split
  next read => simp [read]
  next read =>
    refine iff_of_false nofun fun ⟨same, other⟩ => other ?_
    exact Except.error.inj (same.symm.trans read)
  next other large read =>
    simp only [read, Option.some.injEq, Except.error.injEq]
    exact ⟨fun same => ⟨same, by rintro rfl; exact large same⟩, And.left⟩

/-- Separators at the ends of a pattern decide nothing about its brackets. -/
theorem withBrackets_error_congr {pattern other : List Char} (problem : Regex.SyntaxError)
    (same : (Outline.ofPattern other).body = (Outline.ofPattern pattern).body) :
    Regex.read (withBrackets other).source = .error problem ↔
      Regex.read (withBrackets pattern).source = .error problem := by
  rcases reads_kept (Outline.ofPattern pattern).body with ⟨pieces, _, reads⟩ | ⟨cause, broken⟩
  · have readable (text : List Char)
        (alike : (Outline.ofPattern text).body = (Outline.ofPattern pattern).body) :
        Regex.read (withBrackets text).source ≠ .error problem := by
      rw [withBrackets, (reads_assemble text _ _ pieces (by rw [alike]; exact reads)).read]
      nofun
    exact iff_of_false (readable other same) (readable pattern rfl)
  · rw [broken other same, broken pattern rfl]

theorem bracketProblem?_congr (pattern other : List Char)
    (same : (Outline.ofPattern other).body = (Outline.ofPattern pattern).body) :
    bracketProblem? other = bracketProblem? pattern := by
  apply Option.ext
  intro problem
  rw [bracketProblem?_eq_some, bracketProblem?_eq_some, withBrackets_error_congr problem same]

/-- The division of a pattern that its rule is made of, with its brackets if they can be read. -/
def division (pattern : List Char) : Division :=
  if (bracketProblem? pattern).isSome then .plain (Outline.ofPattern pattern).body
  else .ofText (Outline.ofPattern pattern).body

theorem compile_eq (pattern : List Char) :
    compile pattern = assemble pattern (Outline.ofPattern pattern) (division pattern) := by
  rw [compile, division]
  split
  · rfl
  · rfl

theorem division_congr (pattern other : List Char)
    (same : (Outline.ofPattern other).body = (Outline.ofPattern pattern).body) :
    division other = division pattern := by
  rw [division, division, same, bracketProblem?_congr pattern other same]

/-- A pattern has no expression just if the reading of its brackets breaks off. -/
theorem unreadable_iff (pattern : List Char) :
    Unreadable pattern ↔ Regex.read (withBrackets pattern).source = .error .codeTooLarge := by
  rw [Unreadable, regex, compile]
  split
  next rejected =>
    -- Brackets that are given up leave a rule that can be read.
    obtain ⟨problem, rejected⟩ := Option.isSome_iff_exists.mp rejected
    obtain ⟨broken, other⟩ := (bracketProblem?_eq_some pattern problem).mp rejected
    obtain ⟨regex, read⟩ := read_withoutBrackets pattern
    rw [read, broken]
    exact iff_of_false nofun fun same => other (Except.error.inj same)
  next => rfl

theorem unreadable_congr (pattern other : List Char)
    (same : (Outline.ofPattern other).body = (Outline.ofPattern pattern).body) :
    Unreadable other ↔ Unreadable pattern := by
  rw [unreadable_iff, unreadable_iff]
  exact withBrackets_error_congr _ same

/-- The part of a rule that its brackets belong to is read as whole pieces, unless a character code
in them is too large. -/
theorem reads_division (pattern : List Char) (readable : ¬Unreadable pattern) :
    ∃ pieces, (∀ piece ∈ pieces, BodyPiece piece) ∧
      Reads (bodySource (division pattern)) pieces := by
  rw [division]
  split
  next => exact reads_plain _
  next kept =>
    rcases reads_kept (Outline.ofPattern pattern).body with reads | ⟨problem, broken⟩
    · exact reads
    · refine absurd (Option.isSome_iff_exists.mpr ⟨problem, ?_⟩) kept
      refine (bracketProblem?_eq_some pattern problem).mpr ⟨broken pattern rfl, ?_⟩
      rintro rfl
      exact readable ((unreadable_iff pattern).mpr (broken pattern rfl))

/-- A compiled rule is read as its prefix, pieces, and its suffix. -/
theorem reads_compile (pattern : List Char) (readable : ¬Unreadable pattern) :
    ∃ pieces, (∀ piece ∈ pieces, BodyPiece piece) ∧
      Reads (compile pattern).source (opening (compile pattern).rooted ++ pieces ++
        closing (compile pattern).directoryOnly) := by
  obtain ⟨pieces, whole, reads⟩ := reads_division pattern readable
  refine ⟨pieces, whole, ?_⟩
  rw [compile_eq]
  exact reads_assemble _ _ _ pieces reads

/-- A pattern without an expression has a source that spells out a number that is too large. -/
theorem Unreadable.holds {pattern : List Char} (unreadable : Unreadable pattern) :
    Regex.HoldsLargeCode (withBrackets pattern).source :=
  Regex.holdsLargeCode_of_read _ ((unreadable_iff pattern).mp unreadable)

/-- Every pattern has an expression unless a character code in it is too large. -/
theorem readable_iff (pattern : List Char) :
    (∃ regex, (compile pattern).regex = .ok regex) ↔ ¬Unreadable pattern := by
  constructor
  · rintro ⟨regex, read⟩ unreadable
    rw [Unreadable, read] at unreadable
    cases unreadable
  · intro readable
    obtain ⟨_, _, reads⟩ := reads_compile pattern readable
    exact ⟨_, reads.read⟩

end Reading

end IgnoreRules.Rule
