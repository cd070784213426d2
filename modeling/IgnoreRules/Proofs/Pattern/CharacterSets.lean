import IgnoreRules.Proofs.Pattern.Bracketed
import IgnoreRules.Proofs.Pattern.Literal
import IgnoreRules.Text.AsciiNames

/-!
# Bracket expressions as sets of characters

Patterns of characters that stand for themselves and of brackets that list letters and digits, one by
one or from one to another. Such a pattern is cut at every bracket, and the text between two brackets
is escaped by itself, but nothing in it depends on where it was cut: each character and each bracket
is read as one class, in the order of the pattern. So the rule hits the names that have a character
of the right class in every place.
-/

namespace IgnoreRules

/-- The last character of a text, if there is one, is not blank. -/
def Text.EndsVisible (text : List Char) : Prop := ∀ c ∈ text.getLast?, isBlank c = false

namespace Text

/-- A text that has been trimmed does not end with a blank character. -/
theorem endsVisible_of_trim (text : List Char) (trimmed : trim text = text) : EndsVisible text := by
  rw [← trimmed]
  intro c last
  rw [trim, trimEnd, List.getLast?_reverse] at last
  have head := List.head?_dropWhile_not isBlank (text.dropWhile isBlank).reverse
  rw [last] at head
  simpa using head

theorem EndsVisible.behind {front rest : List Char} (ends : EndsVisible (front ++ rest)) :
    EndsVisible rest := by
  intro c last
  refine ends c ?_
  rw [List.getLast?_append, Option.mem_def.mp last]
  rfl

theorem EndsVisible.shown {text : List Char} (ends : EndsVisible text) :
    text = [] ∨ trim text ≠ [] := by
  rcases List.eq_nil_or_concat text with rfl | ⟨front, c, rfl⟩
  · exact .inl rfl
  · exact .inr (trim_nonempty _ ⟨c, by simp, ends c (by simp)⟩)

end Text

namespace Pattern

open Regex (CharClass ClassAtom ClassItem Reads sequence)

/-- What a bracket can list: a letter or digit, or all characters from one of them to another. -/
inductive Span
  | single (c : Char)
  | range (first last : Char)
  deriving DecidableEq, Repr

namespace Span

def text : Span → List Char
  | single c => [c]
  | range first last => [first, '-', last]

/-- A span is given by letters and digits, and does not run backwards. -/
def Proper : Span → Prop
  | single c => c.isAlphanum = true
  | range first last =>
    first.isAlphanum = true ∧ last.isAlphanum = true ∧ first.toNat ≤ last.toNat

def Contains : Span → Char → Prop
  | single c, d => d = c
  | range first last, d => first.toNat ≤ d.toNat ∧ d.toNat ≤ last.toNat

end Span

/-- What takes up one character of a name. -/
inductive Slot
  | literal (c : Char)
  | oneOf (spans : List Span)
  deriving DecidableEq, Repr

namespace Slot

def contents (spans : List Span) : List Char := spans.flatMap Span.text

def text : Slot → List Char
  | literal c => [c]
  | oneOf spans => '[' :: contents spans ++ [']']

/-- The pattern that some slots make. -/
def pattern (slots : List Slot) : List Char := slots.flatMap text

def Proper : Slot → Prop
  | literal c => IsLiteral c
  | oneOf spans => spans ≠ [] ∧ ∀ span ∈ spans, span.Proper

def Accepts : Slot → Char → Prop
  | literal c, d => d = c
  | oneOf spans, d => ∃ span ∈ spans, span.Contains d

end Slot

/-! ## Reading a bracket -/

namespace Span

def atoms : Span → List ClassAtom
  | single c => [.point c.toNat]
  | range first last => [.point first.toNat, .hyphen, .point last.toNat]

def item : Span → ClassItem
  | single c => .range c.toNat c.toNat
  | range first last => .range first.toNat last.toNat

theorem contains_item (span : Span) (c : Char) : span.item.contains c = true ↔ span.Contains c := by
  cases span with
  | single d =>
    simp only [item, ClassItem.contains, Bool.and_eq_true, decide_eq_true_eq, Contains]
    constructor
    · intro bounds
      exact Char.toNat_inj.mp (by omega)
    · rintro rfl
      exact ⟨Nat.le_refl _, Nat.le_refl _⟩
  | range first last => simp [item, ClassItem.contains, Contains]

/-- No letter or digit has a meaning of its own in a bracket. -/
theorem read_character [Text.CharacterNames] (c : Char) (plain : c.isAlphanum = true)
    (rest : List Char) :
    ClassAtom.read (c :: rest) = (do return .point c.toNat :: (← ClassAtom.read rest)) := by
  have apart (d : Char) (other : d.isAlphanum = false) : c ≠ d := by
    rintro rfl
    simp [plain] at other
  exact ClassAtom.read_point c rest (apart '\\' rfl) (apart '-' rfl)

theorem read_contents [Text.CharacterNames] (spans : List Span)
    (proper : ∀ span ∈ spans, span.Proper) :
    ClassAtom.read (Slot.contents spans) = .ok (spans.flatMap atoms) := by
  induction spans with
  | nil => rfl
  | cons span spans ih =>
    have rest := ih fun other member => proper other (by simp [member])
    have first := proper span (by simp)
    cases span with
    | single c =>
      change ClassAtom.read (c :: Slot.contents spans) = _
      rw [read_character c first, rest]
      rfl
    | range low high =>
      change ClassAtom.read (low :: '-' :: high :: Slot.contents spans) = _
      rw [read_character low first.1, ClassAtom.read_hyphen, read_character high first.2.1, rest]
      rfl

/-- A hyphen joins two characters to a range, and no span begins with one. -/
theorem items_atoms (spans : List Span) (proper : ∀ span ∈ spans, span.Proper) :
    ClassAtom.items (spans.flatMap atoms) = .ok (spans.map item) := by
  induction spans with
  | nil => rfl
  | cons span spans ih =>
    have rest := ih fun other member => proper other (by simp [member])
    have first := proper span (by simp)
    cases span with
    | single c =>
      have alone (last : ClassAtom) (more : List ClassAtom) :
          spans.flatMap atoms ≠ .hyphen :: last :: more := by
        cases spans with
        | nil => nofun
        | cons span spans => cases span <;> nofun
      change ClassAtom.items (.point c.toNat :: spans.flatMap atoms) = _
      rw [ClassAtom.items_alone _ _ alone (ClassAtom.tooLarge_point c), rest]
      rfl
    | range low high =>
      change ClassAtom.items (.point low.toNat :: .hyphen :: .point high.toNat ::
        spans.flatMap atoms) = _
      simp only [ClassAtom.items, ClassAtom.tooLarge_point, Bool.or_self, Bool.false_eq_true,
        if_false, ClassAtom.bound?, if_pos first.2.2, rest]
      rfl

end Span

namespace Slot

/-- The class that a slot stands for. -/
def set : Slot → CharClass
  | literal c => .single c
  | oneOf spans => ⟨false, spans.map Span.item⟩

theorem contains_set (slot : Slot) (c : Char) : slot.set.contains c = true ↔ slot.Accepts c := by
  cases slot with
  | literal d => simp [set, Accepts]
  | oneOf spans => simp [set, Accepts, CharClass.contains, Span.contains_item]

def pieces (slots : List Slot) : List Regex := slots.map fun slot => .one slot.set

/-- Contents of a bracket are made of letters, digits and hyphens. -/
theorem mem_contents (spans : List Span) (proper : ∀ span ∈ spans, span.Proper) (c : Char)
    (member : c ∈ contents spans) : c.isAlphanum = true ∨ c = '-' := by
  obtain ⟨span, listed, inside⟩ := List.mem_flatMap.mp member
  have first := proper span listed
  cases span with
  | single d =>
    obtain rfl : c = d := by simpa [Span.text] using inside
    exact .inl first
  | range low high =>
    rcases (by simpa [Span.text] using inside : c = low ∨ c = '-' ∨ c = high) with
      rfl | rfl | rfl
    · exact .inl first.1
    · exact .inr rfl
    · exact .inl first.2.1

theorem not_mem_contents (spans : List Span) (proper : ∀ span ∈ spans, span.Proper) (c : Char)
    (other : c.isAlphanum = false) (apart : c ≠ '-') : c ∉ contents spans := by
  intro member
  rcases mem_contents spans proper c member with plain | rfl
  · rw [plain] at other
    cases other
  · exact apart rfl

theorem reads_oneOf [Text.CharacterNames] (spans : List Span) (proper : (oneOf spans).Proper) :
    Reads ('[' :: contents spans ++ [']']) [.one (oneOf spans).set] := by
  obtain ⟨nonempty, proper⟩ := proper
  have absent := not_mem_contents spans proper
  obtain ⟨first, rest, begins⟩ : ∃ c rest, contents spans = c :: rest ∧ c.isAlphanum = true := by
    obtain ⟨span, spans, rfl⟩ := List.exists_cons_of_ne_nil nonempty
    have first := proper span (by simp)
    cases span with
    | single c => exact ⟨c, _, rfl, first⟩
    | range low high => exact ⟨low, _, rfl, first.1⟩
  have caret : (contents spans).head? ≠ some '^' :=
    fun same => absent '^' rfl (by decide) (List.mem_of_mem_head? same)
  have set : CharClass.read (contents spans) = .ok (oneOf spans).set := by
    rw [CharClass.read_of_head _ caret, Span.read_contents spans proper]
    change (do return (⟨false, ← ClassAtom.items _⟩ : CharClass)) = _
    rw [Span.items_atoms spans proper]
    rfl
  refine reads_bracket _ (enclosed_of_not_mem _ (absent ']' rfl (by decide))
    (absent '\\' rfl (by decide))) ?_ ?_ _ set
  · rw [begins.1]
    simp
  · intro same
    exact caret (by simp [same])

end Slot

/-! ## Cutting a pattern at its brackets -/

namespace Slot

/-- The division of the slots of a pattern, behind some text that was met before. -/
def divide (before : List Char) : List Slot → Division
  | [] => .plain before
  | literal c :: slots => divide (before ++ [c]) slots
  | oneOf spans :: slots => .cons ⟨before, contents spans⟩ (divide [] slots)

theorem scan_pattern (slots : List Slot) (proper : ∀ slot ∈ slots, slot.Proper)
    (before : List Char) :
    Division.scan before none (pattern slots) = divide before.reverse slots := by
  induction slots generalizing before with
  | nil => rfl
  | cons slot slots ih =>
    have rest := ih fun other member => proper other (by simp [member])
    have first := proper slot (by simp)
    cases slot with
    | literal c =>
      have apart (d : Char) (special : ¬IsLiteral d) : c ≠ d := fun same => special (same ▸ first)
      have escape := apart '\\' (by simp [IsLiteral])
      have opens := apart '[' (by simp [IsLiteral])
      change Division.scan before none (c :: pattern slots) = _
      rw [Division.scan.eq_4 _ _ _ (fun _ _ same => absurd same escape)
        (fun same => absurd same escape) (fun same => absurd same opens), rest, List.reverse_cons]
      rfl
    | oneOf spans =>
      have absent := not_mem_contents spans first.2
      have cut : pattern (oneOf spans :: slots) =
          '[' :: (contents spans ++ ']' :: pattern slots) := by
        simp [pattern, text]
      rw [cut, Division.scan.eq_3, Division.scan_contents _ _ _ _ (absent ']' rfl (by decide))
        (absent '\\' rfl (by decide)), rest]
      rfl

theorem literals_concat (word : List Char) (literals : ∀ c ∈ word, IsLiteral c) (c : Char)
    (literal : IsLiteral c) : ∀ d ∈ word ++ [c], IsLiteral d := by
  intro d member
  rcases List.mem_append.mp member with earlier | last
  · exact literals d earlier
  · rwa [List.mem_singleton.mp last]

/-- What lies between the brackets is made of literals. -/
theorem literals_divide (slots : List Slot) (proper : ∀ slot ∈ slots, slot.Proper)
    (before : List Char) (literals : ∀ c ∈ before, IsLiteral c) :
    (∀ piece ∈ (divide before slots).pieces, ∀ c ∈ piece.before, IsLiteral c) ∧
      ∀ c ∈ (divide before slots).remainder, IsLiteral c := by
  induction slots generalizing before with
  | nil => exact ⟨by simp [divide, Division.plain], literals⟩
  | cons slot slots ih =>
    have rest := ih fun other member => proper other (by simp [member])
    cases slot with
    | literal c => exact rest _ (literals_concat before literals c (proper (literal c) (by simp)))
    | oneOf spans =>
      obtain ⟨befores, remainder⟩ := rest [] (by simp)
      refine ⟨fun piece member => ?_, remainder⟩
      rcases List.mem_cons.mp member with rfl | member
      · exact literals
      · exact befores piece member

end Slot

/-! ## Reading the pieces -/

section
variable (word : List Char) (literals : ∀ c ∈ word, IsLiteral c)
include literals

theorem not_mem_literals (c : Char) (special : ¬IsLiteral c) : c ∉ word :=
  fun member => special (literals c member)

/-- Literals are read one after the other, escaped or not. -/
theorem ofText_literals [Text.CharacterNames] :
    Reads (Fragment.ofText word).source (word.map fun c => .one (.single c)) ∧
      (Fragment.ofText word).forcesDirectory = false := by
  have absent := not_mem_literals word literals
  have plain : unescape word = word := unescape_of_not_mem word (absent '\\' (by simp [IsLiteral]))
  obtain ⟨marks, forces⟩ := Mark.ofText_flat word
    (by rw [plain]; exact absent '/' (by simp [IsLiteral]))
    (by rw [plain]; exact absent '\x00' (by simp [IsLiteral]))
  have starless := Mark.ofChar_not_mem '*' rfl (by decide) word (absent '*' (by simp [IsLiteral]))
  rw [plain, Mark.placeDoubleStars_of_not_mem _ starless, Mark.stars_of_not_mem _ starless] at marks
  refine ⟨?_, forces⟩
  have reads := reads_text word
  have each (c : Char) (member : c ∈ word) : (Mark.ofChar c).regex = .one (.single c) := by
    have question : c ≠ '?' := fun same => absent '?' (by simp [IsLiteral]) (same ▸ member)
    by_cases special : isSpecial c = true
    · simp [Mark.ofChar, special, Mark.regex]
    · simp [Mark.ofChar, special, question, Mark.regex]
  rw [marks, List.map_map] at reads
  rwa [← List.map_congr_left each]

end

namespace Slot

/-- Wherever a pattern is cut, its slots are read one after the other. -/
theorem reads_divide [Text.CharacterNames] (slots : List Slot)
    (proper : ∀ slot ∈ slots, slot.Proper) (before : List Char)
    (literals : ∀ c ∈ before, IsLiteral c) (ends : Text.EndsVisible (before ++ pattern slots)) :
    Reads (Rule.bodySource (divide before slots))
      ((before.map fun c => .one (.single c)) ++ pieces slots) := by
  induction slots generalizing before with
  | nil =>
    rw [pattern, List.flatMap_nil, List.append_nil] at ends
    change Reads (Rule.remainderSource before) _
    rw [pieces, List.map_nil, List.append_nil, Rule.remainderSource]
    split
    next blank =>
      obtain rfl | visible := ends.shown
      · exact .nil
      · exact absurd blank visible
    next => exact (ofText_literals before literals).1
  | cons slot slots ih =>
    have rest := ih fun other member => proper other (by simp [member])
    cases slot with
    | literal c =>
      have further := rest (before ++ [c])
        (literals_concat before literals c (proper (literal c) (by simp)))
        (by simpa [pattern, text] using ends)
      rw [List.map_append, List.append_assoc] at further
      exact further
    | oneOf spans =>
      have behind : before ++ pattern (oneOf spans :: slots) =
          (before ++ '[' :: contents spans ++ [']']) ++ pattern slots := by
        simp [pattern, text]
      rw [behind] at ends
      have parts := ((ofText_literals before literals).1.append
        (reads_oneOf spans (proper _ (by simp)))).append (rest [] (by simp) ends.behind)
      simpa [Rule.bodySource, Rule.pieceSource, divide, Division.cons, pieces] using parts

theorem matches_pieces (slots : List Slot) (position : Nat) (name after : List Char) :
    (sequence (pieces slots)).Matches position name after ↔
      List.Forall₂ Slot.Accepts slots name := by
  induction slots generalizing position name with
  | nil => simp [pieces]
  | cons slot slots ih =>
    rw [pieces, List.map_cons, Regex.matches_sequence_cons, List.forall₂_cons_left_iff]
    change (∃ left right, name = left ++ right ∧ _ ∧ (sequence (pieces slots)).Matches _ _ _) ↔ _
    simp only [ih, Regex.Matches, contains_set]
    constructor
    · rintro ⟨_, rest, rfl, ⟨c, rfl, accepted⟩, others⟩
      exact ⟨c, rest, accepted, others, rfl⟩
    · rintro ⟨c, rest, accepted, others, rfl⟩
      exact ⟨[c], rest, rfl, ⟨c, rfl, accepted⟩, others⟩

end Slot
end Pattern

namespace Rule

open Pattern
open Regex (sequence)

/-- Pieces that stand for names, wherever they are matched, are hit where such a name is a component
of the path. -/
theorem hits_component_iff (pieces : List Regex) (accepted : List Char → Prop)
    (matched : ∀ position text after,
      (sequence pieces).Matches position text after ↔ accepted text)
    (names : ∀ text, accepted text → text ≠ [] ∧ '/' ∉ text) (path : List Char)
    (rooted : path.head? = some '/') (inLine : '\n' ∉ path) :
    (sequence (opening false ++ pieces ++ closing false)).hits path = true ↔
      ∃ component ∈ path.splitOn '/', accepted component := by
  obtain ⟨path, rfl⟩ := List.head?_eq_some_iff.mp rooted
  have behind (component : List Char) (found : accepted component) :
      component ∈ ('/' :: path).splitOn '/' ↔ component ∈ path.splitOn '/' := by
    simp [splitOn_separator, (names component found).1]
  simp only [Regex.hits_iff, matches_whole, matched]
  constructor
  · rintro ⟨before, _, after, split, -, component, last, rfl, found, ended⟩
    refine ⟨component, (behind component found).mpr ?_, found⟩
    rw [mem_splitOn_iff]
    refine ⟨(names component found).2, before, last ++ after, by simpa using split, ?_⟩
    rcases ended with rfl | ⟨-, rfl, final⟩
    · simp [AtBoundary]
    · have feed : '\n' ∉ after := fun member => inLine (by simp [split, member])
      obtain rfl := Regex.eq_nil_of_endsHere after feed final
      simp [AtBoundary]
  · rintro ⟨component, member, found⟩
    obtain ⟨-, before, rest, split, boundary⟩ :=
      (mem_splitOn_iff _ _).mp ((behind component found).mp member)
    rw [split]
    cases rest with
    | nil =>
      refine ⟨before, '/' :: component, [], by simp, by simp, component, [], by simp, found, ?_⟩
      exact .inr ⟨trivial, rfl, rfl⟩
    | cons c rest =>
      obtain rfl : c = '/' := boundary c (by simp)
      refine ⟨before, '/' :: (component ++ ['/']), rest, by simp, by simp, component, ['/'], rfl,
        found, .inl rfl⟩

section
variable (slots : List Slot) (proper : ∀ slot ∈ slots, slot.Proper)
include proper

theorem separator_not_mem : '/' ∉ Slot.pattern slots := by
  intro member
  obtain ⟨slot, listed, inside⟩ := List.mem_flatMap.mp member
  have first := proper slot listed
  cases slot with
  | literal c =>
    obtain rfl : '/' = c := by simpa [Slot.text] using inside
    simp [Slot.Proper, IsLiteral] at first
  | oneOf spans =>
    have absent := Slot.not_mem_contents spans first.2 '/' rfl (by decide)
    simp [Slot.text, absent] at inside

/-- No separator lies between the brackets, and nothing there asks for a directory. -/
theorem flags_slots [Text.CharacterNames] :
    hasSeparator (Slot.divide [] slots) = false ∧
      forcesDirectory (Slot.divide [] slots) = false := by
  obtain ⟨befores, remainder⟩ := Slot.literals_divide slots proper [] (by simp)
  have flat (word : List Char) (literals : ∀ c ∈ word, IsLiteral c) : '/' ∉ word :=
    not_mem_literals word literals '/' (by simp [IsLiteral])
  constructor
  · rw [hasSeparator, Bool.or_eq_false_iff, List.any_eq_false]
    exact ⟨fun piece member => by simp [flat _ (befores piece member)], by simp [flat _ remainder]⟩
  · rw [forcesDirectory, (ofText_literals _ remainder).2, Bool.or_false, List.any_eq_false]
    intro piece member
    simp [(ofText_literals _ (befores piece member)).2]

/-- The rule is read slot by slot. -/
theorem regex_slots [Text.CharacterNames]
    (trimmed : Text.trim (Slot.pattern slots) = Slot.pattern slots) :
    (compile (Slot.pattern slots)).regex =
      .ok (sequence (opening false ++ Slot.pieces slots ++ closing false)) := by
  have flat := separator_not_mem slots proper
  have outline : Outline.ofPattern (Slot.pattern slots) = ⟨Slot.pattern slots, false, false⟩ :=
    Outline.ofPattern_bare _ (fun same => flat (List.mem_of_mem_head? same))
      fun same => flat (List.mem_of_getLast? same)
  have division : Division.ofText (Slot.pattern slots) = Slot.divide [] slots :=
    Slot.scan_pattern slots proper []
  obtain ⟨rooted, directory⟩ := flags_slots slots proper
  have body := Slot.reads_divide slots proper [] (by simp) (Text.endsVisible_of_trim _ trimmed)
  have reads : Regex.Reads (withBrackets (Slot.pattern slots)).source
      (opening false ++ Slot.pieces slots ++ closing false) := by
    rw [withBrackets, outline, division, assemble_source]
    simp only [assemble, rooted, directory, Bool.or_false]
    exact ((reads_opening _).append body).append (reads_closing _)
  rw [compile_of_readable _ _ reads.read]
  exact reads.read

end

/-- No slot takes up a separator, which comes before all letters and digits. -/
theorem separator_not_accepted (slot : Slot) (proper : slot.Proper) : ¬slot.Accepts '/' := by
  cases slot with
  | literal c =>
    rintro rfl
    simp [Slot.Proper, IsLiteral] at proper
  | oneOf spans =>
    rintro ⟨span, listed, contained⟩
    have first := proper.2 span listed
    cases span with
    | single c =>
      obtain rfl : '/' = c := contained
      have range := Text.alphanum_range '/' first
      exact absurd range.1 (by decide)
    | range low high =>
      have above := Text.alphanum_range low first.1
      have below : low.toNat ≤ 47 := contained.1
      omega

/-- A pattern of characters and brackets hits the paths with a component that has, in the place of
each of them, that character or one from the bracket. -/
theorem slots_hits_iff [Text.CharacterNames] (slots : List Slot) (nonempty : slots ≠ [])
    (proper : ∀ slot ∈ slots, slot.Proper)
    (trimmed : Text.trim (Slot.pattern slots) = Slot.pattern slots) (path : List Char)
    (rooted : path.head? = some '/') (inLine : '\n' ∉ path) :
    ∃ regex, (compile (Slot.pattern slots)).regex = .ok regex ∧
      (regex.hits path = true ↔
        ∃ component ∈ path.splitOn '/', List.Forall₂ Slot.Accepts slots component) := by
  refine ⟨_, regex_slots slots proper trimmed, ?_⟩
  refine hits_component_iff _ _ (Slot.matches_pieces slots) ?_ path rooted inLine
  intro name accepted
  constructor
  · rintro rfl
    exact nonempty (List.forall₂_nil_right_iff.mp accepted)
  · intro member
    obtain ⟨place, inside, same⟩ := List.getElem_of_mem member
    have bound : place < slots.length := by rwa [accepted.length_eq]
    have taken := accepted.get bound inside
    rw [List.get_eq_getElem, List.get_eq_getElem, same] at taken
    exact separator_not_accepted _ (proper _ (List.getElem_mem bound)) taken

/-- Brackets stand next to characters that would mean something in an expression, and a range holds
what lies between capitals and small letters. -/
theorem slots_hits_beside :
    let slots : List Slot := [.literal '+', .oneOf [.range 'a' 'c', .single '5'], .literal '(',
      .oneOf [.range 'X' 'z']]
    (slots ≠ [] ∧ (∀ slot ∈ slots, slot.Proper) ∧
      Text.trim (Slot.pattern slots) = Slot.pattern slots ∧
      "/d/+b(_/e".toList.head? = some '/' ∧ '\n' ∉ "/d/+b(_/e".toList) ∧
    ∃ regex, (compile "+[a-c5]([X-z]".toList).regex = .ok regex ∧
      regex.hits "/d/+b(_/e".toList = true := by
  intro slots
  have proper : ∀ slot ∈ slots, slot.Proper := by
    simp [slots, Slot.Proper, Span.Proper, IsLiteral]
  have rooted : "/d/+b(_/e".toList.head? = some '/' := by decide
  have inLine : '\n' ∉ "/d/+b(_/e".toList := by decide
  have trimmed : Text.trim (Slot.pattern slots) = Slot.pattern slots := by decide
  obtain ⟨regex, read, hits⟩ := slots_hits_iff slots (by simp [slots]) proper trimmed
    "/d/+b(_/e".toList rooted inLine
  refine ⟨⟨by simp [slots], proper, trimmed, rooted, inLine⟩, regex, read, hits.mpr ?_⟩
  refine ⟨"+b(_".toList, by decide, ?_⟩
  simp [slots, Slot.Accepts, Span.Contains]

end Rule
end IgnoreRules
