import IgnoreRules.Proofs.Pattern.Literal
import IgnoreRules.Text.AsciiNames

/-!
# Repeated `**` segments

Two `**` segments next to each other share a separator, and the replacement that takes the first of
them takes that separator along. The second is left as a bare `**` without one, which stands for any
text and is followed by a separator of its own, so there must be an entry between the two. Of a row
of `**` segments every other one therefore asks for an entry, and rows of different length do not
mean the same.
-/

namespace IgnoreRules.Pattern

/-- A row of `**` segments, with a separator behind each. -/
def doubleStars (count : Nat) : List Char := (List.replicate count "**/".toList).flatten

theorem doubleStars_succ (count : Nat) :
    doubleStars (count + 1) = '*' :: '*' :: '/' :: doubleStars count := rfl

theorem mem_doubleStars (count : Nat) (c : Char) (member : c ∈ doubleStars count) :
    c = '*' ∨ c = '/' := by
  induction count with
  | zero => simp [doubleStars] at member
  | succ count ih =>
    simp only [doubleStars_succ, List.mem_cons] at member
    tauto

/-- A word of letters. -/
structure IsLetters (word : List Char) : Prop where
  nonempty : word ≠ []
  letters : ∀ c ∈ word, c.isAlpha = true

namespace IsLetters

variable {word : List Char} (letters : IsLetters word)
include letters

theorem not_mem (c : Char) (other : c.isAlpha = false) : c ∉ word := fun member =>
  Text.letter_ne c c (letters.letters c member) other rfl

theorem mark_not_mem (c : Char) (other : c.isAlpha = false) : .char c ∉ word.map Mark.char := by
  simpa using letters.not_mem c other

theorem visible : ∃ c ∈ word, Text.isBlank c = false := by
  obtain ⟨c, member⟩ := List.exists_mem_of_ne_nil word letters.nonempty
  exact ⟨c, member, Text.isBlank_letter c (letters.letters c member)⟩

end IsLetters

namespace Mark

/-! ## The marks of a row -/

/-- A separator, a row of `**` segments, and what stands behind it. Every other `**` of the row is
taken together with the separators around it. -/
def row (between : List Mark) : Nat → List Mark → List Mark
  | 0, behind => .char '/' :: behind
  | 1, behind => .innerPath :: behind
  | count + 2, behind => .innerPath :: (between ++ row between count behind)

theorem mem_row (between : List Mark) (count : Nat) (behind : List Mark) (mark : Mark)
    (member : mark ∈ row between count behind) :
    mark = .char '/' ∨ mark = .innerPath ∨ mark ∈ between ∨ mark ∈ behind := by
  fun_induction row between count behind with grind

/-- A row is taken from its front, two segments at a time. -/
theorem innerDoubleStars_row (count : Nat) (word : List Mark) (slash : .char '/' ∉ word)
    (star : .char '*' ∉ word) :
    innerDoubleStars (.char '/' :: ((doubleStars count).map .char ++ word)) =
      row [.char '*', .char '*'] count word := by
  have plain : innerDoubleStars word = word := by
    simpa [innerDoubleStars] using innerDoubleStars_append word [] slash
  induction count using Nat.twoStepInduction with
  | zero =>
    change innerDoubleStars (.char '/' :: word) = .char '/' :: word
    rw [innerDoubleStars_separator, plain]
    rintro ⟨rest, rfl⟩
    simp at star
  | one =>
    change .innerPath :: innerDoubleStars word = .innerPath :: word
    rw [plain]
  | more count ih =>
    change .innerPath :: innerDoubleStars ([.char '*', .char '*'] ++
      .char '/' :: ((doubleStars count).map .char ++ word)) = _
    rw [innerDoubleStars_append _ _ (by simp), ih, row]

theorem placeDoubleStars_row (count : Nat) (word : List Mark) (star : .char '*' ∉ word) :
    placeDoubleStars (row [.char '*', .char '*'] count word) = row [.anyText] count word := by
  have plain := placeDoubleStars_of_not_mem word star
  induction count using Nat.twoStepInduction with
  | zero =>
    change placeDoubleStars ([.char '/'] ++ word) = _
    rw [placeDoubleStars_append _ _ (by simp), plain, row, List.singleton_append]
  | one =>
    change placeDoubleStars ([.innerPath] ++ word) = _
    rw [placeDoubleStars_append _ _ (by simp), plain, row, List.singleton_append]
  | more count ih =>
    change placeDoubleStars ([.innerPath] ++ (.char '*' :: .char '*' ::
      row [.char '*', .char '*'] count word)) = _
    rw [placeDoubleStars_append _ _ (by simp), placeDoubleStars.eq_1, ih]
    rfl

/-- A word without stars completes no pair. -/
theorem placeDoubleStars_word (front word : List Mark) (star : .char '*' ∉ word) :
    placeDoubleStars (front ++ word) = placeDoubleStars front ++ word := by
  fun_induction placeDoubleStars front with
  | case1 rest ih => exact congrArg _ ih
  | case2 mark rest single ih =>
    rw [List.cons_append, placeDoubleStars.eq_2, ih, List.cons_append]
    intro more first same
    cases rest with
    | nil =>
      rw [List.nil_append] at same
      exact star (by simp [same])
    | cons next rest => exact single rest first (by rw [(List.cons.inj same).1])
  | case3 => exact placeDoubleStars_of_not_mem word star

theorem not_mem_row_append (front between : List Mark) (count : Nat) (c : Char)
    (absent : .char c ∉ front) (absentToo : .char c ∉ between) (other : c ≠ '/') :
    .char c ∉ front ++ row between count [] := by
  intro member
  rcases List.mem_append.mp member with member | member
  · exact absent member
  · simpa [other, absentToo] using mem_row between count [] _ member

theorem starSegments_of_not_mem (marks : List Mark) (absent : .char '*' ∉ marks) :
    starSegments marks = marks := by
  fun_induction starSegments marks with grind

theorem row_append (between : List Mark) (count : Nat) (behind more : List Mark) :
    row between count (behind ++ more) = row between count behind ++ more := by
  fun_induction row between count behind with
  | case1 => rfl
  | case2 => rfl
  | case3 count behind ih => rw [row, ih, List.cons_append, List.append_assoc]

/-- The marks of a row without a separator in front of it, and of one segment more. -/
def leadingRow : Nat → List Mark → List Mark
  | 0, behind => .leadingPath :: behind
  | count + 1, behind => .anyText :: row [.anyText] (count + 1) behind

theorem openWildcards_plain (text : List Char)
    (plain : ∀ c ∈ text, c.isAlpha = true ∨ c = '*' ∨ c = '/') :
    openWildcards text = leadingDoubleStar (innerDoubleStars (text.map .char)) := by
  have ordinary (c : Char) (member : c ∈ text) : isSpecial c = false ∧ c ≠ '?' ∧ c ≠ '\\' := by
    rcases plain c member with letter | rfl | rfl
    · exact ⟨letter_ordinary c letter, Text.letter_ne c '?' letter rfl,
        Text.letter_ne c '\\' letter rfl⟩
    · decide
    · decide
  have same : text.map ofChar = text.map .char := by
    refine List.map_congr_left fun c member => ?_
    obtain ⟨special, question, -⟩ := ordinary c member
    simp [ofChar, special, question]
  rw [openWildcards, unescape_of_not_mem _ fun member => (ordinary _ member).2.2 rfl, ofChar_text,
    same]

/-- Where all stars in front of a word are in pairs the last steps only put a mark in the place of
each pair. -/
theorem ofText_pairs (last : List Char) (letters : IsLetters last) (text : List Char)
    (front : List Mark) (opened : openWildcards text = front ++ last.map .char)
    (nul : .char '\x00' ∉ front) (pairs : .char '*' ∉ placeDoubleStars front) :
    ofText text = placeDoubleStars front ++ last.map .char ∧
      (Fragment.ofText text).forcesDirectory = false := by
  have built : .anyText ∉ front ++ last.map .char := fun member =>
    (unsettled_openWildcards text .anyText (opened ▸ member)).1
  have placed := placeDoubleStars_word front (last.map .char) (letters.mark_not_mem '*' rfl)
  have starless : .char '*' ∉ placeDoubleStars front ++ last.map .char := by
    simp only [List.mem_append, not_or]
    exact ⟨pairs, letters.mark_not_mem '*' rfl⟩
  -- The last letter is no star, so nothing in front of it is a final `/**`.
  have trailing : hasTrailingDoubleStar (front ++ last.map .char) = false := by
    obtain ⟨rest, c, rfl⟩ : ∃ rest c, last = rest ++ [c] :=
      ⟨_, _, (List.dropLast_concat_getLast letters.nonempty).symm⟩
    have apart (d : Char) (other : d.isAlpha = false) : Mark.char c ≠ .char d := fun same =>
      Text.letter_ne c d (letters.letters c (by simp)) other (Mark.char.inj same)
    rw [List.map_append, ← List.append_assoc]
    exact (trailingDoubleStar_seam (.char c) (apart '/' rfl) (apart '*' rfl) (apart '\n' rfl) _ []).2
  rw [ofText_forcesDirectory, ofText, opened, trailingDoubleStar_of_none _ trailing,
    closeWildcards_eq _ built, placed, starSegments_of_not_mem _ starless,
    stars_of_not_mem _ starless]
  · exact ⟨rfl, trailing⟩
  · simp only [List.mem_append, not_or]
    exact ⟨nul, letters.mark_not_mem '\x00' rfl⟩

/-- Behind a word a row is taken with the separator between them. -/
theorem ofText_innerRow (first last : List Char) (count : Nat) (begins : IsLetters first)
    (ends : IsLetters last) :
    ofText (first ++ '/' :: (doubleStars count ++ last)) =
        first.map .char ++ row [.anyText] count (last.map .char) ∧
      (Fragment.ofText (first ++ '/' :: (doubleStars count ++ last))).forcesDirectory = false := by
  have star := begins.mark_not_mem '*' rfl
  have opened : openWildcards (first ++ '/' :: (doubleStars count ++ last)) =
      (first.map .char ++ row [.char '*', .char '*'] count []) ++ last.map .char := by
    rw [openWildcards_plain]
    · rw [List.map_append, List.map_cons, List.map_append,
        innerDoubleStars_append _ _ (begins.mark_not_mem '/' rfl),
        innerDoubleStars_row count _ (ends.mark_not_mem '/' rfl) (ends.mark_not_mem '*' rfl),
        leadingDoubleStar.eq_2, List.append_assoc, ← row_append, List.nil_append]
      intro rest same
      obtain ⟨c, others, rfl⟩ := List.exists_cons_of_ne_nil begins.nonempty
      exact star (by simp [(List.cons.inj same).1])
    · intro c member
      simp only [List.mem_append, List.mem_cons] at member
      rcases member with member | rfl | member | member
      · exact .inl (begins.letters c member)
      · exact .inr (.inr rfl)
      · exact .inr (mem_doubleStars count c member)
      · exact .inl (ends.letters c member)
  have placed : placeDoubleStars (first.map .char ++ row [.char '*', .char '*'] count []) =
      first.map .char ++ row [.anyText] count [] := by
    rw [placeDoubleStars_append _ _ star, placeDoubleStars_row count [] (by simp)]
  have read := ofText_pairs last ends _ _ opened
    (not_mem_row_append _ _ count '\x00' (begins.mark_not_mem '\x00' rfl) (by simp) (by decide))
    (placed ▸ not_mem_row_append _ _ count '*' star (by simp) (by decide))
  rwa [placed, List.append_assoc, ← row_append, List.nil_append] at read

/-- At the start of a pattern there is no separator to take, so a row loses its first one. -/
theorem ofText_leadingRow (last : List Char) (count : Nat) (ends : IsLetters last) :
    ofText (doubleStars (count + 1) ++ last) = leadingRow count (last.map .char) ∧
      (Fragment.ofText (doubleStars (count + 1) ++ last)).forcesDirectory = false := by
  have opened : openWildcards (doubleStars (count + 1) ++ last) =
      leadingDoubleStar (.char '*' :: .char '*' ::
        row [.char '*', .char '*'] count (last.map .char)) := by
    rw [openWildcards_plain]
    · have inner := innerDoubleStars_append [.char '*', .char '*']
        (.char '/' :: ((doubleStars count).map .char ++ last.map .char)) (by simp)
      rw [innerDoubleStars_row count _ (ends.mark_not_mem '/' rfl) (ends.mark_not_mem '*' rfl)]
        at inner
      refine congrArg leadingDoubleStar ?_
      rw [doubleStars_succ]
      simpa using inner
    · intro c member
      rcases List.mem_append.mp member with member | member
      · exact .inr (mem_doubleStars _ c member)
      · exact .inl (ends.letters c member)
  cases count with
  | zero =>
    exact ofText_pairs last ends _ [.leadingPath] opened (by simp) (by simp [placeDoubleStars])
  | succ count =>
    have kept : openWildcards (doubleStars (count + 1 + 1) ++ last) =
        ([.char '*', .char '*'] ++ row [.char '*', .char '*'] (count + 1) []) ++
          last.map .char := by
      rw [opened, leadingDoubleStar.eq_2, List.append_assoc, ← row_append]
      · rfl
      · intro rest same
        cases count <;> simp [row] at same
    have placed : placeDoubleStars ([.char '*', .char '*'] ++
        row [.char '*', .char '*'] (count + 1) []) =
          [.anyText] ++ row [.anyText] (count + 1) [] := by
      rw [← placeDoubleStars_row (count + 1) [] (by simp)]
      rfl
    have read := ofText_pairs last ends _ _ kept
      (not_mem_row_append _ _ (count + 1) '\x00' (by simp) (by simp) (by decide))
      (placed ▸ not_mem_row_append _ _ (count + 1) '*' (by simp) (by simp) (by decide))
    rwa [placed, List.append_assoc, ← row_append, List.nil_append] at read

/-! ## What a row takes -/

/-- A path between two separators and any text behind it are any text behind a separator. -/
theorem acceptsAll_anyText (marks : List Mark) (text : List Char) :
    AcceptsAll (.innerPath :: .anyText :: marks) text ↔
      ∃ skipped rest, text = '/' :: (skipped ++ rest) ∧ '\n' ∉ skipped ∧ AcceptsAll marks rest := by
  constructor
  · rintro ⟨_, _, rfl, rfl | ⟨path, rfl, -, inLine⟩, skipped, rest, rfl, inside, accepted⟩
    · exact ⟨skipped, rest, rfl, inside, accepted⟩
    · refine ⟨path ++ '/' :: skipped, rest, by simp, ?_, accepted⟩
      have clean : '\n' ∉ skipped := inside
      simp [inLine, clean]
  · rintro ⟨skipped, rest, rfl, inLine, accepted⟩
    exact ⟨['/'], skipped ++ rest, rfl, .inl rfl, skipped, rest, rfl, inLine, accepted⟩

/-- Behind a separator any text takes what it takes behind a path between two. -/
theorem acceptsAll_separator_anyText (marks : List Mark) (text : List Char) :
    AcceptsAll (.char '/' :: .anyText :: marks) text ↔
      AcceptsAll (.innerPath :: .anyText :: marks) text := by
  rw [acceptsAll_anyText]
  constructor
  · rintro ⟨_, _, rfl, rfl, skipped, rest, rfl, inLine, accepted⟩
    exact ⟨skipped, rest, rfl, inLine, accepted⟩
  · rintro ⟨skipped, rest, rfl, inLine, accepted⟩
    exact ⟨['/'], skipped ++ rest, rfl, rfl, skipped, rest, rfl, inLine, accepted⟩

/-- A path in front of a separator is a path between two behind the other separator. -/
theorem acceptsAll_leadingPath (marks : List Mark) (text : List Char) :
    AcceptsAll (.char '/' :: .leadingPath :: marks) text ↔
      AcceptsAll (.innerPath :: marks) text := by
  constructor
  · rintro ⟨_, _, rfl, rfl, _, rest, rfl, rfl | ⟨path, rfl, some⟩, accepted⟩
    · exact ⟨['/'], rest, rfl, .inl rfl, accepted⟩
    · exact ⟨'/' :: (path ++ ['/']), rest, by simp, .inr ⟨path, rfl, some⟩, accepted⟩
  · rintro ⟨_, rest, rfl, rfl | ⟨path, rfl, some⟩, accepted⟩
    · exact ⟨['/'], rest, rfl, rfl, [], rest, rfl, .inl rfl, accepted⟩
    · exact ⟨['/'], path ++ '/' :: rest, by simp, rfl, path ++ ['/'], rest, by simp,
        .inr ⟨path, rfl, some⟩, accepted⟩

/-- A row starts with a separator. -/
theorem row_separator (count : Nat) (behind : List Mark) (text : List Char)
    (accepted : AcceptsAll (row [.anyText] count behind) text) : ∃ rest, text = '/' :: rest := by
  have inner (left right : List Char) (first : Mark.innerPath.Accepts left) :
      ∃ rest, left ++ right = '/' :: rest := by
    rcases first with rfl | ⟨path, rfl, _⟩
    · exact ⟨right, rfl⟩
    · exact ⟨_, rfl⟩
  fun_cases row [.anyText] count behind with
  | case1 =>
    obtain ⟨_, rest, rfl, rfl, _⟩ := accepted
    exact ⟨rest, rfl⟩
  | case2 | case3 =>
    obtain ⟨left, right, rfl, first, _⟩ := accepted
    exact inner left right first

/-- A row of `**` segments and a name take any entries and one of that name, if there are enough
entries: one for every two segments of the row. -/
theorem acceptsAll_row (count : Nat) (name : List Char) (whole : '/' ∉ name)
    (components : List (List Char)) (names : ∀ component ∈ components, IsName component) :
    AcceptsAll (row [.anyText] count (name.map .char)) (trail components) ↔
      ∃ skipped, components = skipped ++ [name] ∧ count / 2 ≤ skipped.length ∧
        (count = 0 → skipped = []) := by
  have spelled := acceptsAll_each .char name fun _ _ _ => Iff.rfl
  -- The induction is that of the marks. The front of the components goes to the first two marks.
  induction count using Nat.twoStepInduction generalizing components with
  | zero =>
    have separated := acceptsAll_each .char ('/' :: name) (fun _ _ _ => Iff.rfl) (trail components)
    rw [row, ← List.map_cons, separated, trail_eq_single components name whole names]
    constructor
    · rintro rfl
      exact ⟨[], rfl, by simp, fun _ => rfl⟩
    · rintro ⟨skipped, rfl, -, none⟩
      simp [none]
  | one =>
    constructor
    · rintro ⟨_, found, split, rfl | ⟨path, rfl, -, -⟩, accepted⟩
      · obtain rfl := (spelled found).mp accepted
        exact ⟨[], (trail_eq_single components _ whole names).mp split, by simp, fun _ => rfl⟩
      · obtain rfl := (spelled found).mp accepted
        obtain ⟨before, behind, rfl, -, rest⟩ := trail_cut components false names ('/' :: path) found
          (by simpa [ending] using split)
        have last := (trail_eq_single behind found whole fun component member =>
          names component (by simp [member])).mp (by simpa [ending] using rest.symm)
        exact ⟨before, by rw [last], by simp, by simp⟩
    · rintro ⟨skipped, rfl, -, -⟩
      cases skipped with
      | nil => exact ⟨['/'], name, by simp, .inl rfl, (spelled name).mpr rfl⟩
      | cons first skipped =>
        have named := names first (by simp)
        have inLine := inLine_trail (first :: skipped) fun component member =>
          names component (List.mem_append_left _ member)
        simp only [trail_cons, List.mem_cons, not_or] at inLine
        exact ⟨'/' :: (first ++ trail skipped ++ ['/']), name, by simp,
          .inr ⟨first ++ trail skipped, rfl, by simp [named.nonempty], inLine.2⟩,
          (spelled name).mpr rfl⟩
  | more count ih =>
    rw [row, List.singleton_append, acceptsAll_anyText]
    constructor
    · rintro ⟨skipped, rest, split, -, accepted⟩
      obtain ⟨rest, rfl⟩ := row_separator count _ rest accepted
      obtain ⟨before, behind, rfl, front, same⟩ := trail_cut components false names
        ('/' :: skipped) rest (by simpa [ending] using split)
      have first : before.length ≠ 0 := by
        rintro none
        simp [List.length_eq_zero_iff.mp none] at front
      rw [same] at accepted
      obtain ⟨others, rfl, enough, -⟩ := (ih behind fun component member =>
        names component (by simp [member])).mp (by simpa [ending] using accepted)
      refine ⟨before ++ others, by simp, ?_, by simp⟩
      rw [List.length_append]
      omega
    · rintro ⟨skipped, rfl, enough, -⟩
      -- Behind its first entries the row takes as few as it can.
      obtain ⟨before, others, rfl, fewest⟩ : ∃ before others, skipped = before ++ others ∧
          others.length = count / 2 :=
        ⟨skipped.take (skipped.length - count / 2), skipped.drop (skipped.length - count / 2),
          (List.take_append_drop _ _).symm, by rw [List.length_drop]; omega⟩
      rw [List.length_append] at enough
      obtain ⟨first, before, rfl⟩ : ∃ first rest, before = first :: rest :=
        List.exists_cons_of_length_pos (by omega)
      have inLine := inLine_trail (first :: before) fun component member =>
        names component (List.mem_append_left _ (List.mem_append_left _ member))
      simp only [trail_cons, List.mem_cons, not_or] at inLine
      refine ⟨first ++ trail before, trail (others ++ [name]), by simp, inLine.2, ?_⟩
      refine (ih _ fun component member => names component ?_).mpr
        ⟨others, rfl, by omega, fun none => List.length_eq_zero_iff.mp (by omega)⟩
      rw [List.append_assoc]
      exact List.mem_append_right _ member

theorem leadingRow_append (count : Nat) (behind more : List Mark) :
    leadingRow count (behind ++ more) = leadingRow count behind ++ more := by
  cases count with
  | zero => rfl
  | succ count => exact congrArg _ (row_append [.anyText] (count + 1) behind more)

/-- Marks that end with a name accept no text that ends with a separator. -/
theorem last_of_acceptsAll (front : List Mark) (name : List Char) (nonempty : name ≠ [])
    (whole : '/' ∉ name) (text : List Char)
    (accepted : AcceptsAll (front ++ name.map .char) text) :
    ∃ before last, text = before ++ [last] ∧ last ≠ '/' := by
  obtain ⟨left, right, rfl, -, spelled⟩ := (acceptsAll_append _ _ _).mp accepted
  obtain rfl := (acceptsAll_each .char name (fun _ _ _ => Iff.rfl) right).mp spelled
  refine ⟨left ++ right.dropLast, right.getLast nonempty, ?_, ?_⟩
  · rw [List.append_assoc, List.dropLast_concat_getLast]
  · exact fun same => whole (same ▸ List.getLast_mem nonempty)

section
variable (count : Nat) (name : List Char) (whole : '/' ∉ name) (components : List (List Char))
  (names : ∀ component ∈ components, IsName component)
include whole names

/-- Behind a word the entry of that word comes first. -/
theorem acceptsAll_innerRow (first : List Char) (wholeToo : '/' ∉ first) :
    AcceptsAll (.char '/' :: (first.map .char ++ row [.anyText] count (name.map .char)))
        (trail components) ↔
      ∃ skipped, components = first :: (skipped ++ [name]) ∧ count / 2 ≤ skipped.length ∧
        (count = 0 → skipped = []) := by
  have spelled := acceptsAll_each .char ('/' :: first) fun _ _ _ => Iff.rfl
  rw [← List.cons_append, ← List.map_cons, acceptsAll_append]
  simp only [spelled]
  constructor
  · rintro ⟨_, right, split, rfl, accepted⟩
    obtain ⟨rest, rfl⟩ := row_separator count _ right accepted
    obtain ⟨before, behind, rfl, front, same⟩ := trail_cut components false names ('/' :: first)
      rest (by simpa [ending] using split)
    obtain rfl := (trail_eq_single before first wholeToo fun component member =>
      names component (by simp [member])).mp front.symm
    rw [same] at accepted
    obtain ⟨skipped, rfl, enough, none⟩ := (acceptsAll_row count name whole behind
      fun component member => names component (by simp [member])).mp
        (by simpa [ending] using accepted)
    exact ⟨skipped, rfl, enough, none⟩
  · rintro ⟨skipped, rfl, enough, none⟩
    refine ⟨'/' :: first, trail (skipped ++ [name]), by simp, rfl, ?_⟩
    exact (acceptsAll_row count name whole _ fun component member =>
      names component (List.mem_cons_of_mem _ member)).mpr ⟨skipped, rfl, enough, none⟩

/-- At the start of a pattern a row of several segments takes what one of one segment more takes
behind a word. -/
theorem acceptsAll_leadingRow :
    AcceptsAll (.char '/' :: leadingRow count (name.map .char)) (trail components) ↔
      ∃ skipped, components = skipped ++ [name] ∧
        (count ≠ 0 → count / 2 + 1 ≤ skipped.length) := by
  cases count with
  | zero =>
    have taken := acceptsAll_row 1 name whole components names
    rw [leadingRow, acceptsAll_leadingPath, ← row.eq_2 [.anyText], taken]
    simp
  | succ count =>
    have taken := acceptsAll_row (count + 3) name whole components names
    have length (entries : Nat) : (count + 3) / 2 ≤ entries ↔ (count + 1) / 2 + 1 ≤ entries := by
      omega
    rw [leadingRow, acceptsAll_separator_anyText]
    simpa [row, length] using taken

end

end Mark
end IgnoreRules.Pattern

namespace IgnoreRules.Rule

open Pattern

section
variable (first last : List Char) (begins : IsLetters first) (ends : IsLetters last) (count : Nat)

include ends in
/-- The rule of a text that ends with a word. -/
theorem regex_of_word [Text.CharacterNames] (front : List Char)
    (starts : (front ++ last).head? ≠ some '/') (brackets : '[' ∉ front) (slash : '/' ∈ front)
    (forces : (Fragment.ofText (front ++ last)).forcesDirectory = false) :
    (compile (front ++ last)).regex =
      .ok (expression true false (Mark.ofText (front ++ last))) := by
  have bare : (front ++ last).getLast? ≠ some '/' := by
    rw [List.getLast?_append_of_ne_nil _ ends.nonempty]
    exact fun same => ends.not_mem '/' rfl (List.mem_of_getLast? same)
  have visible : Text.trim (front ++ last) ≠ [] := by
    obtain ⟨c, member, visible⟩ := ends.visible
    exact Text.trim_nonempty _ ⟨c, by simp [member], visible⟩
  have plain : '[' ∉ front ++ last := by
    simp only [List.mem_append, not_or]
    exact ⟨brackets, ends.not_mem '[' rfl⟩
  rw [regex_of_bare _ starts bare (Division.ofText_of_not_mem _ plain) visible, forces]
  simp [slash]

include begins ends in
theorem regex_innerRow [Text.CharacterNames] :
    (compile (first ++ '/' :: (doubleStars count ++ last))).regex =
      .ok (expression true false
        (first.map .char ++ Mark.row [.anyText] count (last.map .char))) := by
  obtain ⟨marks, forces⟩ := Mark.ofText_innerRow first last count begins ends
  have split : first ++ '/' :: (doubleStars count ++ last) =
      (first ++ '/' :: doubleStars count) ++ last := by simp
  have brackets : '[' ∉ first ++ '/' :: doubleStars count := by
    intro member
    simp only [List.mem_append, List.mem_cons] at member
    rcases member with member | other | member
    · exact begins.not_mem '[' rfl member
    · cases other
    · rcases mem_doubleStars count _ member with other | other <;> cases other
  have starts : (first ++ '/' :: (doubleStars count ++ last)).head? ≠ some '/' := by
    rw [List.head?_append_of_ne_nil _ begins.nonempty]
    exact fun same => begins.not_mem '/' rfl (List.mem_of_head? same)
  rw [split] at marks forces starts ⊢
  rw [regex_of_word last ends _ starts brackets (by simp) forces, marks]

include ends in
theorem regex_leadingRow [Text.CharacterNames] :
    (compile (doubleStars (count + 1) ++ last)).regex =
      .ok (expression true false (Mark.leadingRow count (last.map .char))) := by
  obtain ⟨marks, forces⟩ := Mark.ofText_leadingRow last count ends
  have brackets : '[' ∉ doubleStars (count + 1) := by
    intro member
    rcases mem_doubleStars _ _ member with other | other <;> cases other
  rw [regex_of_word last ends _ (by simp [doubleStars_succ]) brackets
    (by simp [doubleStars_succ]) forces, marks]

section
variable (components : List (List Char)) (trailing : Bool)
  (names : ∀ component ∈ components, IsName component)

include begins ends names in
/-- A row behind a word is hit where the entries of the two words lie far enough apart. -/
theorem hits_innerRow_iff (positive : 0 < count) :
    (expression true false
        (first.map .char ++ Mark.row [.anyText] count (last.map .char))).hits
          (trail components ++ ending trailing) = true ↔
      ∃ skipped after, components = first :: skipped ++ last :: after ∧
        count / 2 ≤ skipped.length := by
  have whole := ends.not_mem '/' rfl
  have wholeToo := begins.not_mem '/' rfl
  rw [hits_rooted_iff _ components trailing names]
  · constructor
    · rintro ⟨taken, after, rfl, accepted⟩
      obtain ⟨skipped, rfl, enough, -⟩ := (Mark.acceptsAll_innerRow count last whole taken
        (fun component member => names component (by simp [member])) first wholeToo).mp accepted
      exact ⟨skipped, after, by simp, enough⟩
    · rintro ⟨skipped, after, rfl, enough⟩
      refine ⟨first :: (skipped ++ [last]), after, by simp, ?_⟩
      exact (Mark.acceptsAll_innerRow count last whole _ (fun component member =>
        names component (by simp at member ⊢; tauto)) first wholeToo).mpr
          ⟨skipped, rfl, enough, by omega⟩
  · intro text accepted
    refine Mark.last_of_acceptsAll (.char '/' :: (first.map .char ++ Mark.row [.anyText] count []))
      last ends.nonempty whole text ?_
    rwa [List.cons_append, List.append_assoc, ← Mark.row_append, List.nil_append]

include ends names in
theorem hits_leadingRow_iff :
    (expression true false (Mark.leadingRow count (last.map .char))).hits
        (trail components ++ ending trailing) = true ↔
      ∃ skipped after, components = skipped ++ last :: after ∧
        (count ≠ 0 → count / 2 + 1 ≤ skipped.length) := by
  have whole := ends.not_mem '/' rfl
  rw [hits_rooted_iff _ components trailing names]
  · constructor
    · rintro ⟨taken, after, rfl, accepted⟩
      obtain ⟨skipped, rfl, enough⟩ := (Mark.acceptsAll_leadingRow count last whole taken
        fun component member => names component (by simp [member])).mp accepted
      exact ⟨skipped, after, by simp, enough⟩
    · rintro ⟨skipped, after, rfl, enough⟩
      refine ⟨skipped ++ [last], after, by simp, ?_⟩
      exact (Mark.acceptsAll_leadingRow count last whole _ fun component member =>
        names component (by simp at member ⊢; tauto)).mpr ⟨skipped, rfl, enough⟩
  · intro text accepted
    refine Mark.last_of_acceptsAll (.char '/' :: Mark.leadingRow count []) last ends.nonempty whole
      text ?_
    rwa [List.cons_append, ← Mark.leadingRow_append, List.nil_append]

end

end

/-- What a row of `**` segments hits depends on its length. Between the entries of two words there
must be at least one entry for every two segments, and in front of a word with nothing before the
row one for every two of a row of several. -/
theorem repeated_hits_iff [Text.CharacterNames] (first last : List Char)
    (letters : ∀ c ∈ first ++ last, c.isAlpha = true) (begun : first ≠ []) (nonempty : last ≠ [])
    (count : Nat) (positive : 0 < count) :
    ∃ inner leading,
      (compile (first ++ '/' :: (doubleStars count ++ last))).regex = .ok inner ∧
      (compile (doubleStars count ++ last)).regex = .ok leading ∧
      ∀ (components : List (List Char)) (trailing : Bool),
        (∀ component ∈ components, IsName component) →
        (inner.hits (trail components ++ ending trailing) = true ↔
          ∃ skipped after, components = first :: skipped ++ last :: after ∧
            count / 2 ≤ skipped.length) ∧
        (leading.hits (trail components ++ ending trailing) = true ↔
          ∃ skipped after, components = skipped ++ last :: after ∧
            (1 < count → (count + 1) / 2 ≤ skipped.length)) := by
  have begins : IsLetters first := ⟨begun, fun c member => letters c (by simp [member])⟩
  have ends : IsLetters last := ⟨nonempty, fun c member => letters c (by simp [member])⟩
  obtain ⟨further, rfl⟩ : ∃ further, count = further + 1 := ⟨count - 1, by omega⟩
  refine ⟨_, _, regex_innerRow first last begins ends (further + 1),
    regex_leadingRow last ends further, fun components trailing names => ⟨?_, ?_⟩⟩
  · exact hits_innerRow_iff first last begins ends (further + 1) components trailing names positive
  · rw [hits_leadingRow_iff last ends further components trailing names]
    have length (entries : Nat) : (further ≠ 0 → further / 2 + 1 ≤ entries) ↔
        (1 < further + 1 → (further + 1 + 1) / 2 ≤ entries) := by
      omega
    simp only [length]

/-- The rule `a/**/**/**/b` hits `/a/c/b/d` and not `/a/b`, and `**/**/**/b` hits `/c/d/b/` and not
`/c/b`. -/
theorem repeated_hits_apart :
    (∀ c ∈ "a".toList ++ "b".toList, c.isAlpha = true) ∧ "a".toList ≠ [] ∧ "b".toList ≠ [] ∧ 0 < 3 ∧
    ∃ inner leading, (compile "a/**/**/**/b".toList).regex = .ok inner ∧
      (compile "**/**/**/b".toList).regex = .ok leading ∧
      inner.hits "/a/c/b/d".toList = true ∧ ¬inner.hits "/a/b".toList = true ∧
      leading.hits "/c/d/b/".toList = true ∧ ¬leading.hits "/c/b".toList = true := by
  have letters : ∀ c ∈ "a".toList ++ "b".toList, c.isAlpha = true := by simp
  obtain ⟨inner, leading, read, readToo, means⟩ :=
    repeated_hits_iff "a".toList "b".toList letters (by decide) (by decide) 3 (by decide)
  have name (c : Char) (slash : c ≠ '/') (feed : c ≠ '\n') : IsName [c] :=
    ⟨by simp, by simpa using slash.symm, by simpa using feed.symm⟩
  have a := name 'a' (by decide) (by decide)
  have b := name 'b' (by decide) (by decide)
  have c := name 'c' (by decide) (by decide)
  have d := name 'd' (by decide) (by decide)
  refine ⟨letters, by decide, by decide, by decide, inner, leading, read, readToo, ?_, ?_, ?_, ?_⟩
  · exact (means [['a'], ['c'], ['b'], ['d']] false (by simp [a, b, c, d])).1.mpr
      ⟨[['c']], [['d']], rfl, by decide⟩
  · intro hit
    obtain ⟨skipped, after, split, enough⟩ :=
      (means [['a'], ['b']] false (by simp [a, b])).1.mp hit
    have length := congrArg List.length split
    simp only [List.length_cons, List.length_append, List.length_nil] at length enough
    omega
  · exact (means [['c'], ['d'], ['b']] true (by simp [b, c, d])).2.mpr
      ⟨[['c'], ['d']], [], rfl, by decide⟩
  · intro hit
    obtain ⟨skipped, after, split, enough⟩ :=
      (means [['c'], ['b']] false (by simp [b, c])).2.mp hit
    have length := congrArg List.length split
    have apart := enough (by decide)
    simp only [List.length_cons, List.length_append, List.length_nil] at length apart
    omega

/-- A row of `**` segments does not always hit what one of them hits. The rule `A/**/B` hits `/A/B`,
and `A/**/**/B` does not. -/
theorem repeated_hits_differ :
    ¬∀ (first last : List Char) (count : Nat), (∀ c ∈ first ++ last, c.isAlpha = true) →
      first ≠ [] → last ≠ [] → 0 < count →
      ∀ (components : List (List Char)) (trailing : Bool), components ≠ [] →
      (∀ component ∈ components, IsName component) →
      ∀ many one manyLeading oneLeading,
        (compile (first ++ '/' :: (doubleStars count ++ last))).regex = .ok many →
        (compile (first ++ '/' :: (doubleStars 1 ++ last))).regex = .ok one →
        (compile (doubleStars count ++ last)).regex = .ok manyLeading →
        (compile (doubleStars 1 ++ last)).regex = .ok oneLeading →
        (many.hits (trail components ++ ending trailing) = true ↔
          one.hits (trail components ++ ending trailing) = true) ∧
        (manyLeading.hits (trail components ++ ending trailing) = true ↔
          oneLeading.hits (trail components ++ ending trailing) = true) := by
  intro always
  obtain ⟨many, read, missed⟩ : ∃ many, (compile "A/**/**/B".toList).regex = .ok many ∧
      many.hits "/A/B".toList = false := ok_of_view (by decide +kernel)
  obtain ⟨one, readOne, single⟩ : ∃ one, (compile "A/**/B".toList).regex = .ok one ∧
      one.hits "/A/B".toList = true := ok_of_view (by decide +kernel)
  obtain ⟨manyLeading, readLeading⟩ := readable_of_not_mem "**/**/B".toList (by decide)
  obtain ⟨oneLeading, readOneLeading⟩ := readable_of_not_mem "**/B".toList (by decide)
  have names : ∀ component ∈ [['A'], ['B']], IsName component := by
    intro component member
    simp only [List.mem_cons, List.not_mem_nil, or_false] at member
    rcases member with rfl | rfl <;> exact ⟨by decide, by decide, by decide⟩
  have same := (always "A".toList "B".toList 2 (by simp) (by decide) (by decide) (by decide)
    [['A'], ['B']] false (by decide) names many one manyLeading oneLeading read readOne readLeading
    readOneLeading).1
  have hit := same.mpr single
  exact Bool.false_ne_true (missed.symm.trans hit)

end IgnoreRules.Rule
