import IgnoreRules.Proofs.Glob.Marks
import IgnoreRules.Proofs.Pattern.Expression
import IgnoreRules.Proofs.Pattern.Seam
import IgnoreRules.Text.AsciiNames

/-!
# Text that stands for itself

A pattern without separators and wildcards hits the entries of that name at any depth, because what
would mean something in an expression is escaped there. A backslash in the pattern is no help
against a wildcard, though: backslashes are dropped first, and the steps that replace wildcards do
not know which characters had one. So escaped text stands for itself exactly if it has no wildcard
in it.
-/

namespace IgnoreRules.Pattern

/-- Text with a backslash before every character. -/
def escape (text : List Char) : List Char := text.flatMap fun c => ['\\', c]

theorem escape_cons (c : Char) (text : List Char) :
    escape (c :: text) = '\\' :: c :: escape text := rfl

theorem unescape_escape (text : List Char) (inLine : '\n' ∉ text) :
    unescape (escape text) = text := by
  induction text with
  | nil => rfl
  | cons c text ih =>
    simp only [List.mem_cons, not_or] at inLine
    rw [escape_cons, unescape, if_neg (Ne.symm inLine.1), ih inLine.2]

/-- Text with a letter in the place of every wildcard. -/
def fill (text : List Char) : List Char := text.map fun c => if c = '*' ∨ c = '?' then 'x' else c

theorem mem_fill (text : List Char) (c : Char) (member : c ∈ fill text) : c ∈ text ∨ c = 'x' := by
  obtain ⟨d, inside, rfl⟩ := List.mem_map.mp member
  split
  · exact .inr rfl
  · exact .inl inside

theorem fill_not_mem (text : List Char) : '*' ∉ fill text ∧ '?' ∉ fill text := by
  constructor
  all_goals
    intro member
    obtain ⟨d, _, same⟩ := List.mem_map.mp member
    split at same
    next => cases same
    next other => simp [same] at other

/-- An escaped bracket opens no bracket expression. -/
theorem Division.ofText_escape (text : List Char) (inLine : '\n' ∉ text) :
    ofText (escape text) = plain (escape text) := by
  have scanned (before : List Char) :
      scan before none (escape text) = plain (before.reverse ++ escape text) := by
    induction text generalizing before with
    | nil => simp [escape, scan, plain]
    | cons c text ih =>
      simp only [List.mem_cons, not_or] at inLine
      rw [escape_cons, scan, if_neg (Ne.symm inLine.1), ih inLine.2]
      simp
  exact scanned []

namespace Mark

/-! ## Text without separators -/

/-- Marks that stand for one character each stand for the text of those characters. -/
theorem acceptsAll_each (mark : Char → Mark) (text : List Char)
    (each : ∀ c ∈ text, ∀ found, (mark c).Accepts found ↔ found = [c]) (found : List Char) :
    AcceptsAll (text.map mark) found ↔ found = text := by
  induction text generalizing found with
  | nil => exact Iff.rfl
  | cons c text ih =>
    have rest := ih fun d member => each d (by simp [member])
    simp only [List.map_cons, AcceptsAll, each c (by simp), rest]
    constructor
    · rintro ⟨_, _, rfl, rfl, rfl⟩
      rfl
    · rintro rfl
      exact ⟨[c], text, rfl, rfl, rfl⟩

theorem ofChar_not_mem (c : Char) (ordinary : isSpecial c = false) (question : c ≠ '?')
    (text : List Char) (absent : c ∉ text) : .char c ∉ text.map ofChar := by
  intro member
  obtain ⟨d, inside, same⟩ := List.mem_map.mp member
  exact absent ((ofChar_eq_char d c ordinary question).mp same ▸ inside)

/-- Without separators only stars are replaced, two next to each other before the others. -/
theorem ofText_flat (text : List Char) (flat : '/' ∉ unescape text) (nul : '\x00' ∉ unescape text) :
    ofText text = stars (placeDoubleStars ((unescape text).map ofChar)) ∧
      (Fragment.ofText text).forcesDirectory = false := by
  have slash := ofChar_not_mem '/' rfl (by decide) _ flat
  have opened : openWildcards text = (unescape text).map ofChar := by
    have inner := innerDoubleStars_append _ [] slash
    rw [List.append_nil, innerDoubleStars, List.append_nil] at inner
    rw [openWildcards, ofChar_text, inner, leadingDoubleStar.eq_2]
    intro more same
    exact slash (by simp [same])
  have trailing := trailingDoubleStar_append _ [] slash
  rw [List.append_nil, trailingDoubleStar, hasTrailingDoubleStar, List.append_nil] at trailing
  have placed : .char '/' ∉ placeDoubleStars ((unescape text).map ofChar) := by
    intro member
    rcases mem_placeDoubleStars _ _ member with member | other
    · exact slash member
    · cases other
  have segments := starSegments_append _ [] placed
  rw [List.append_nil, starSegments, List.append_nil] at segments
  have built : .anyText ∉ (unescape text).map ofChar := fun member =>
    (unsettled_openWildcards text .anyText (opened ▸ member)).1
  rw [ofText_forcesDirectory, ofText, opened, trailing.1, trailing.2,
    closeWildcards_eq _ built (ofChar_not_mem _ rfl (by decide) _ nul), segments]
  exact ⟨rfl, rfl⟩

theorem stars_of_not_mem (marks : List Mark) (absent : .char '*' ∉ marks) : stars marks = marks :=
    by
  induction marks with
  | nil => rfl
  | cons mark marks ih =>
    simp only [List.mem_cons, not_or] at absent
    rw [stars, List.map_cons, ← stars, ih absent.2]
    congr 1
    cases mark with
    | char c => simp [show c ≠ '*' from fun same => absent.1 (by rw [same])]
    | _ => rfl

/-- Text without separators and wildcards stands for itself. -/
theorem acceptsAll_literal (text : List Char) (flat : '/' ∉ unescape text)
    (nul : '\x00' ∉ unescape text) (star : '*' ∉ unescape text) (question : '?' ∉ unescape text)
    (found : List Char) : AcceptsAll (ofText text) found ↔ found = unescape text := by
  have starless := ofChar_not_mem '*' rfl (by decide) _ star
  rw [(ofText_flat text flat nul).1, placeDoubleStars_of_not_mem _ starless,
    stars_of_not_mem _ starless]
  exact acceptsAll_each ofChar _ (fun c member => accepts_ofChar c fun same =>
    question (same ▸ member)) found

/-- A character stands for itself, and a wildcard for every other one as well. -/
theorem acceptsAll_character (c d : Char) (slash : d ≠ '/') (same : d = c ∨ c = '*' ∨ c = '?') :
    AcceptsAll (stars [ofChar c]) [d] := by
  refine ⟨[d], [], rfl, ?_, rfl⟩
  by_cases star : c = '*'
  · subst star
    simp [ofChar, isSpecial, Accepts, Ne.symm slash]
  · by_cases question : c = '?'
    · subst question
      exact ⟨d, rfl, slash⟩
    · obtain rfl : d = c := by simpa [star, question] using same
      by_cases special : isSpecial d = true <;> simp [ofChar, special, question, star, Accepts]

theorem stars_append (marks more : List Mark) : stars (marks ++ more) = stars marks ++ stars more :=
  List.map_append

/-- A wildcard stands for a letter as well. -/
theorem acceptsAll_fill (text : List Char) (flat : '/' ∉ unescape text)
    (nul : '\x00' ∉ unescape text) : AcceptsAll (ofText text) (fill (unescape text)) := by
  rw [(ofText_flat text flat nul).1]
  generalize unescape text = plain at flat
  generalize same : plain.map ofChar = marks
  fun_induction placeDoubleStars marks generalizing plain with
  | case1 rest ih =>
    -- Two stars stand for two letters.
    obtain ⟨c, others, rfl, star, again⟩ := List.map_eq_cons_iff.mp same
    obtain ⟨d, others, rfl, starToo, behind⟩ := List.map_eq_cons_iff.mp again
    obtain rfl := (ofChar_eq_char c _ rfl (by decide)).mp star
    obtain rfl := (ofChar_eq_char d _ rfl (by decide)).mp starToo
    simp only [List.mem_cons, not_or] at flat
    exact ⟨['x', 'x'], fill others, rfl, by simp [Accepts], ih others flat.2.2 behind⟩
  | case2 mark rest _ ih =>
    obtain ⟨c, others, rfl, rfl, behind⟩ := List.map_eq_cons_iff.mp same
    simp only [List.mem_cons, not_or] at flat
    have first : AcceptsAll (stars [ofChar c]) (fill [c]) := by
      by_cases wildcard : c = '*' ∨ c = '?'
      · simpa [fill, wildcard] using acceptsAll_character c 'x' (by decide) (.inr wildcard)
      · simpa [fill, wildcard] using acceptsAll_character c c (Ne.symm flat.1) (.inl rfl)
    rw [← List.singleton_append, stars_append]
    exact (acceptsAll_append _ _ _).mpr ⟨fill [c], fill others, rfl, first, ih others flat.2 behind⟩
  | case3 =>
    obtain rfl := List.map_eq_nil_iff.mp same
    rfl

end Mark

section
variable (word : List Char) (plain : ∀ c ∈ word, c.isAlphanum = true)
include plain

theorem not_mem_word (c : Char) (other : c.isAlphanum = false) : c ∉ word := by
  intro member
  rw [plain c member] at other
  cases other

theorem acceptsAll_word (found : List Char) :
    Mark.AcceptsAll (Mark.ofText word) found ↔ found = word := by
  have absent := not_mem_word word plain
  have spelled := Mark.acceptsAll_literal word
  rw [unescape_of_not_mem word (absent '\\' rfl)] at spelled
  exact spelled (absent '/' rfl) (absent '\x00' rfl) (absent '*' rfl) (absent '?' rfl) found

end
end IgnoreRules.Pattern

namespace IgnoreRules.Rule

open Pattern

/-! ## Rules of a name -/

/-- A pattern without separators is looked for at any depth, and in files as well. -/
theorem regex_of_flat [Text.CharacterNames] (pattern : List Char)
    (whole : Division.ofText pattern = .plain pattern) (visible : Text.trim pattern ≠ [])
    (flat : '/' ∉ pattern) (nul : '\x00' ∉ pattern) :
    (compile pattern).regex = .ok (expression false false (Mark.ofText pattern)) := by
  have starts : pattern.head? ≠ some '/' := fun same => flat (List.mem_of_mem_head? same)
  have ends : pattern.getLast? ≠ some '/' := fun same => flat (List.mem_of_getLast? same)
  have forces := (Mark.ofText_flat pattern (fun member => flat (mem_unescape _ _ member))
    fun member => nul (mem_unescape _ _ member)).2
  rw [regex_of_bare pattern starts ends whole visible, forces]
  simp [flat]

/-- A rule whose marks stand for a name hits the paths with a component of that name. The end of a
path is taken to be in front of a line feed there, so the name with one more line feed is hit as the
last component. -/
theorem hits_name_iff (marks : List Mark) (name : List Char) (nonempty : name ≠ [])
    (whole : '/' ∉ name) (spelled : ∀ found, Mark.AcceptsAll marks found ↔ found = name)
    (path : List Char) (rooted : path.head? = some '/') :
    (expression false false marks).hits path = true ↔
      name ∈ path.splitOn '/' ∨ (path.splitOn '/').getLast? = some (name ++ ['\n']) := by
  obtain ⟨text, rfl⟩ := List.head?_eq_some_iff.mp rooted
  have shorter : name ∈ ('/' :: text).splitOn '/' ↔ name ∈ text.splitOn '/' := by
    simp [splitOn_separator, nonempty]
  rw [shorter, splitOn_separator, List.getLast?_cons_of_ne_nil (List.splitOn_ne_nil '/' text),
    mem_splitOn_iff, getLast?_splitOn_iff]
  constructor
  · simp only [Regex.hits_iff, matches_expression, spelled]
    rintro ⟨front, _, behind, split, -, _, last, rfl, rfl, ended⟩
    rcases ended with rfl | ⟨-, rfl, final⟩
    · exact .inl ⟨whole, front, '/' :: behind, by simpa using split, by simp [AtBoundary]⟩
    · rcases (Regex.endsHere_iff _).mp final with rfl | rfl
      · exact .inl ⟨whole, front, [], by simpa using split, by simp [AtBoundary]⟩
      · exact .inr ⟨by simp [whole], front, by simpa using split⟩
  · have accepted := (spelled name).mpr rfl
    rintro (⟨-, front, rest, split, boundary⟩ | ⟨-, front, split⟩)
    · rw [split]
      refine hits_of_accepts false marks front name rest (by simp) accepted ?_
      cases rest with
      | nil => exact .inl rfl
      | cons c rest =>
        obtain rfl : c = '/' := boundary c (by simp)
        exact .inr ⟨rest, rfl⟩
    · rw [split]
      exact hits_of_accepts false marks front name ['\n'] (by simp) accepted (.inl rfl)

/-! ## Escaped text -/

section
variable (name : List Char) (nonempty : name ≠ [])
  (printable : ∀ c ∈ name, 32 < c.toNat ∧ c.toNat < 127 ∧ c ≠ '/' ∧ c ≠ '\\')

include printable in
private theorem not_mem_printable (c : Char) (other : ¬(32 < c.toNat ∧ c ≠ '/' ∧ c ≠ '\\')) :
    c ∉ name := fun member =>
  other ⟨(printable c member).1, (printable c member).2.2⟩

include printable in
private theorem not_mem_escape (c : Char)
    (other : ¬(32 < c.toNat ∧ c ≠ '/' ∧ c ≠ '\\')) (apart : c ≠ '\\') : c ∉ escape name := by
  simp only [escape, List.mem_flatMap, not_exists, not_and]
  intro d member same
  simp only [List.mem_cons, List.not_mem_nil, or_false, apart, false_or] at same
  exact not_mem_printable name printable c other (same ▸ member)

include nonempty in
private theorem trim_escape : Text.trim (escape name) ≠ [] := by
  obtain ⟨c, name, rfl⟩ := List.exists_cons_of_ne_nil nonempty
  exact Text.trim_nonempty _ ⟨'\\', by simp [escape_cons], by decide⟩

include printable nonempty in
theorem regex_escape [Text.CharacterNames] :
    (compile (escape name)).regex = .ok (expression false false (Mark.ofText (escape name))) :=
  regex_of_flat _ (Division.ofText_escape _ (not_mem_printable name printable '\n' (by decide)))
    (trim_escape name nonempty) (not_mem_escape name printable '/' (by decide) (by decide))
    (not_mem_escape name printable '\x00' (by decide) (by decide))

include printable nonempty in
/-- Escaped text is hit as the name of an entry and nowhere else exactly if it has no wildcard. -/
theorem escape_hits_iff [Text.CharacterNames] :
    ∃ regex, (compile (escape name)).regex = .ok regex ∧
      ((∀ path : List Char, path.head? = some '/' → '\\' ∉ path → '\n' ∉ path →
          (regex.hits path = true ↔ name ∈ path.splitOn '/')) ↔
        '*' ∉ name ∧ '?' ∉ name) := by
  have absent := not_mem_printable name printable
  have plain := unescape_escape name (absent '\n' (by decide))
  have flat : '/' ∉ unescape (escape name) := by
    rw [plain]
    exact absent '/' (by decide)
  have nul : '\x00' ∉ unescape (escape name) := by
    rw [plain]
    exact absent '\x00' (by decide)
  refine ⟨_, regex_escape name nonempty printable, ?_⟩
  constructor
  · intro always
    -- The name with letters in the place of its wildcards is hit as well.
    have filled := hits_of_accepts false _ [] _ [] nofun
      (Mark.acceptsAll_fill (escape name) flat nul) (.inl rfl)
    rw [plain, List.append_nil, List.nil_append] at filled
    have kept (c : Char) (missing : c ∉ name) (other : c ≠ 'x') : c ∉ fill name := fun member =>
      (mem_fill name c member).elim missing other
    have slash := kept '/' (absent '/' (by decide)) (by decide)
    have escapes := kept '\\' (absent '\\' (by decide)) (by decide)
    have feed := kept '\n' (absent '\n' (by decide)) (by decide)
    have member := (always ('/' :: fill name) rfl (by simp [escapes]) (by simp [feed])).mp filled
    rw [splitOn_separator, List.splitOn_eq_singleton slash] at member
    obtain rfl | same : name = [] ∨ name = fill name := by simpa using member
    · exact absurd rfl nonempty
    · rw [same]
      exact fill_not_mem name
  · rintro ⟨star, question⟩ path rooted - inLine
    have spelled := Mark.acceptsAll_literal (escape name) flat nul (by rwa [plain])
      (by rwa [plain])
    have last : (path.splitOn '/').getLast? ≠ some (name ++ ['\n']) := by
      intro ended
      obtain ⟨_, before, split⟩ := (getLast?_splitOn_iff _ _).mp ended
      have member : '\n' ∈ '/' :: path := by simp [split]
      simp [inLine] at member
    rw [hits_name_iff _ _ (by rwa [plain]) flat spelled path rooted, plain]
    simp [last]

end

/-- The rule of the text `#[a]!` with a backslash before each character is about that name. -/
theorem escape_hits_brackets :
    "#[a]!".toList ≠ [] ∧
    (∀ c ∈ "#[a]!".toList, 32 < c.toNat ∧ c.toNat < 127 ∧ c ≠ '/' ∧ c ≠ '\\') ∧
    ∃ regex, (compile "\\#\\[\\a\\]\\!".toList).regex = .ok regex ∧
      regex.hits "/b/#[a]!/c".toList = true ∧ ¬regex.hits "/b/#a!/c".toList = true := by
  have nonempty : "#[a]!".toList ≠ [] := by decide
  have printable : ∀ c ∈ "#[a]!".toList, 32 < c.toNat ∧ c.toNat < 127 ∧ c ≠ '/' ∧ c ≠ '\\' := by
    simp
  obtain ⟨regex, read, means⟩ := escape_hits_iff "#[a]!".toList nonempty printable
  have named := means.mpr (by decide)
  refine ⟨nonempty, printable, regex, read, ?_, ?_⟩
  · exact (named "/b/#[a]!/c".toList (by decide) (by decide) (by decide)).mpr (by decide)
  · intro hit
    exact absurd ((named "/b/#a!/c".toList (by decide) (by decide) (by decide)).mp hit) (by decide)

/-- A backslash does not keep a star from being a wildcard. The rule `\*` hits `/x`. -/
theorem escape_hits_wildcard :
    ¬∀ name : List Char, name ≠ [] →
      (∀ c ∈ name, 32 < c.toNat ∧ c.toNat < 127 ∧ c ≠ '/' ∧ c ≠ '\\') →
      ∀ path : List Char, path.head? = some '/' → '\\' ∉ path → '\n' ∉ path →
      ∀ regex, (compile (escape name)).regex = .ok regex →
        (regex.hits path = true ↔ name ∈ path.splitOn '/') := by
  intro always
  obtain ⟨found, read, hit⟩ : ∃ found, (compile "\\*".toList).regex = .ok found ∧
      found.hits "/x".toList = true := ok_of_view (by decide +kernel)
  have member := (always "*".toList (by decide) (by simp) "/x".toList (by decide) (by decide)
    (by decide) found read).mp hit
  exact absurd member (by decide)

end IgnoreRules.Rule
