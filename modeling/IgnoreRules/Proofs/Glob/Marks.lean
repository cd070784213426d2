import IgnoreRules.Proofs.Glob.Syntax
import IgnoreRules.Proofs.Pattern.Hits
import IgnoreRules.Proofs.Pattern.Plain

/-!
# The marks of a glob

What the series of replacements makes of a glob: a `**` between two words becomes one mark with the
separators around it, and the words keep theirs. A segment `*` ends up as a whole name or as any
part of one, depending on whether the segment before it was a `*` as well and took the separator
between them. Both stand for the same components, so a relation is enough to describe the result.
-/

namespace IgnoreRules.Pattern

namespace Mark

/-- The mark of a character before stars are replaced. -/
def ofChar (c : Char) : Mark :=
  if special : isSpecial c = true then .escaped c special
  else if c = '?' then .nameChar else .char c

private theorem ofChar_question : ofChar '?' = .nameChar := rfl

theorem ofChar_eq_char (c d : Char) (ordinary : isSpecial d = false) (other : d ≠ '?') :
    ofChar c = .char d ↔ c = d := by
  by_cases special : isSpecial c = true
  · have apart : c ≠ d := by
      rintro rfl
      simp [special] at ordinary
    simp [ofChar, special, apart]
  · by_cases question : c = '?'
    · subst question
      simp [ofChar_question, Ne.symm other]
    · simp [ofChar, special, question]

theorem accepts_ofChar (c : Char) (question : c ≠ '?') (found : List Char) :
    (ofChar c).Accepts found ↔ found = [c] := by
  by_cases special : isSpecial c = true <;> simp [ofChar, special, question, Accepts]

theorem ofChar_text (text : List Char) :
    questionMarks (escapeSpecial (text.map .char)) = text.map ofChar := by
  simp only [questionMarks, escapeSpecial, List.map_map]
  refine List.map_congr_left fun c _ => ?_
  by_cases special : isSpecial c = true <;> simp [ofChar, special]

/-- Stars at the front that could be a `**`. -/
def Doubled (marks : List Mark) : Prop := ∃ rest, marks = .char '*' :: .char '*' :: rest

theorem innerDoubleStars_separator (marks : List Mark) (single : ¬Doubled marks) :
    innerDoubleStars (.char '/' :: marks) = .char '/' :: innerDoubleStars marks := by
  rw [innerDoubleStars.eq_2]
  rintro rest _ rfl
  exact single ⟨_, rfl⟩

theorem trailingDoubleStar_separator (marks : List Mark) (single : ¬Doubled marks) :
    trailingDoubleStar (.char '/' :: marks) = .char '/' :: trailingDoubleStar marks ∧
      hasTrailingDoubleStar (.char '/' :: marks) = hasTrailingDoubleStar marks := by
  have other (rest : List Mark) (_ : Mark.char '/' = .char '/')
      (same : marks = .char '*' :: .char '*' :: rest) : False := single ⟨rest, same⟩
  rw [trailingDoubleStar.eq_2 _ _ other, hasTrailingDoubleStar.eq_2 _ _ other]
  exact ⟨rfl, rfl⟩

/-! ## Words -/

/-- The marks of a word before its stars are replaced. -/
def ofItems (items : List Item) : List Mark := (items.map Item.char).map ofChar

/-- The mark of an item. -/
def ofItem : Item → Mark
  | .literal c => ofChar c
  | .anyChar => .nameChar
  | .anyRun => .namePart

theorem ofItems_not_mem (items : List Item) (word : IsWord items) (c : Char)
    (separates : c = '/' ∨ c = '\x00' ∨ c = '\n') : .char c ∉ ofItems items := by
  have ordinary : isSpecial c = false ∧ c ≠ '?' := by
    rcases separates with rfl | rfl | rfl <;> decide
  intro member
  simp only [ofItems, List.map_map, List.mem_map, Function.comp_apply] at member
  obtain ⟨item, present, same⟩ := member
  have other := word.char item present
  rw [(ofChar_eq_char _ _ ordinary.1 ordinary.2).mp same] at other
  rcases separates with rfl | rfl | rfl <;> simp at other

theorem ofChar_star (items : List Item) (word : IsWord items) (item : Item) (member : item ∈ items)
    (star : ofChar item.char = .char '*') : item = .anyRun := by
  rw [ofChar_eq_char _ _ rfl (by decide)] at star
  cases item with
  | literal c =>
    have ordinary := word.literals c member
    rw [Item.char] at star
    simp [IsLiteral, star] at ordinary
  | anyChar => simp [Item.char] at star
  | anyRun => rfl

theorem ofItems_single (items : List Item) (word : IsWord items) (rest : List Mark)
    (closed : ∀ more, rest ≠ .char '*' :: more) : ¬Doubled (ofItems items ++ rest) := by
  -- The second star would be an item of the word, next to the first, or come right behind the word.
  rintro ⟨more, same⟩
  cases items with
  | nil => exact word.nonempty rfl
  | cons first items =>
    obtain ⟨star, same⟩ := List.cons.inj same
    have run := ofChar_star _ word first (by simp) star
    cases items with
    | nil => exact closed more same
    | cons second items =>
      obtain ⟨star, _⟩ := List.cons.inj same
      exact word.apart.rel ⟨run, ofChar_star _ word second (by simp) star⟩

/-- The stars of a word are not held back. -/
theorem holdDoubleStars_items (items : List Item) (word : IsWord items) (rest : List Mark)
    (closed : ∀ more, rest ≠ .char '*' :: more) :
    holdDoubleStars (ofItems items ++ rest) = ofItems items ++ holdDoubleStars rest := by
  -- The induction is on what is left of the word, whose neighbours are those of the whole word.
  have walked (suffix : List Item) (behind : ∃ front, items = front ++ suffix) :
      holdDoubleStars (ofItems suffix ++ rest) = ofItems suffix ++ holdDoubleStars rest := by
    induction suffix with
    | nil => rfl
    | cons first suffix ih =>
      obtain ⟨front, rfl⟩ := behind
      have member (item : Item) (inside : item ∈ first :: suffix) :
          item ∈ front ++ first :: suffix := List.mem_append_right _ inside
      change holdDoubleStars (ofChar first.char :: (ofItems suffix ++ rest)) = _
      rw [holdDoubleStars.eq_2, ih ⟨front ++ [first], by simp⟩]
      · rfl
      · intro more star same
        have run := ofChar_star _ word first (member _ (by simp)) star
        cases suffix with
        | nil => exact closed more same
        | cons second suffix =>
          obtain ⟨again, _⟩ := List.cons.inj same
          have apart := (word.apart.right_of_append).rel
          exact apart ⟨run, ofChar_star _ word second (member _ (by simp)) again⟩
  exact walked items ⟨[], rfl⟩

theorem stars_items (items : List Item) (word : IsWord items) (rest : List Mark) :
    stars (ofItems items ++ rest) = items.map ofItem ++ stars rest := by
  simp only [stars, List.map_append, ofItems, List.map_map]
  congr 1
  refine List.map_congr_left fun item member => ?_
  have known := ofChar_star items word item member
  cases item with
  | literal c =>
    have other : c ≠ '*' := by
      rintro rfl
      cases known rfl
    simp only [Function.comp_apply, Item.char, ofItem]
    by_cases special : isSpecial c = true
    · simp [ofChar, special]
    · by_cases question : c = '?'
      · subst question
        rfl
      · simp [ofChar, special, question, other]
  | anyChar => rfl
  | anyRun => rfl

/-! ## Segments -/

/-- Segments, a separator before each, as marks. -/
def separated (segments : List Segment) : List Mark :=
  (trail (segments.map Segment.text)).map ofChar

/-- The marks of segments below the first when every `**` has been replaced. -/
def below : List Segment → List Mark
  | [] => []
  | [.doubleStar] => [.trailingPath]
  | .doubleStar :: next :: rest => .innerPath :: (next.text.map ofChar ++ below rest)
  | segment :: rest => .char '/' :: (segment.text.map ofChar ++ below rest)

private theorem separated_cons (segment : Segment) (segments : List Segment) :
    separated (segment :: segments) =
      .char '/' :: (segment.text.map ofChar ++ separated segments) := by
  simp only [separated, List.map_cons, trail_cons, List.map_append]
  rfl

private theorem separated_closed (segments : List Segment) (more : List Mark) :
    separated segments ≠ .char '*' :: more := by
  cases segments with
  | nil => exact fun same => nomatch same
  | cons segment segments =>
    rw [separated_cons]
    exact fun same => nomatch same

theorem below_closed (segments : List Segment) (more : List Mark) :
    below segments ≠ .char '*' :: more := by
  fun_cases below segments <;> exact fun same => nomatch same

private theorem innerDoubleStars_closed (segments : List Segment) (more : List Mark) :
    innerDoubleStars (separated segments) ≠ .char '*' :: more := by
  cases segments with
  | nil => exact fun same => nomatch same
  | cons segment segments =>
    rw [separated_cons]
    intro same
    unfold innerDoubleStars at same
    split at same
    next => cases same
    next joined =>
      cases joined
      cases same
    next joined => cases joined

/-- Replacing `**` below the first segment. -/
theorem trailing_inner (segments : List Segment) (proper : Segment.Proper segments) :
    trailingDoubleStar (innerDoubleStars (separated segments)) = below segments ∧
      (hasTrailingDoubleStar (innerDoubleStars (separated segments)) = true ↔
        segments.getLast? = some .doubleStar) := by
  fun_induction below segments with
  | case1 => exact ⟨rfl, by simp [separated, innerDoubleStars, hasTrailingDoubleStar]⟩
  | case2 => exact ⟨rfl, by simp; rfl⟩
  | case3 next rest ih =>
    obtain ⟨items, rfl, word⟩ := proper.next
    have clean := ofItems_not_mem items word '/' (.inl rfl)
    have further := ih proper.tail.tail
    -- Both separators go into one mark, and no other starts within the word.
    have inner : innerDoubleStars (separated (.doubleStar :: .word items :: rest)) =
        .innerPath :: (ofItems items ++ innerDoubleStars (separated rest)) := by
      rw [separated_cons, separated_cons, ← innerDoubleStars_append _ _ clean]
      rfl
    have walked := trailingDoubleStar_append (.innerPath :: ofItems items)
      (innerDoubleStars (separated rest)) (by simp [clean])
    rw [inner, ← List.cons_append, walked.1, walked.2, further.1, further.2]
    refine ⟨rfl, ?_⟩
    cases rest <;> simp
  | case4 segment rest single several ih =>
    cases segment with
    | doubleStar =>
      cases rest with
      | nil => exact absurd rfl (single rfl)
      | cons next rest => exact absurd rfl (several next rest rfl)
    | word items =>
      have word := proper.words items (by simp)
      have clean := ofItems_not_mem items word '/' (.inl rfl)
      have further := ih proper.tail
      rw [separated_cons]
      change trailingDoubleStar (innerDoubleStars (.char '/' :: (ofItems items ++ separated rest))) =
          .char '/' :: (ofItems items ++ below rest) ∧ _
      -- A word does not start like `**`, so the separator in front of it stays through both steps.
      have outer := trailingDoubleStar_separator _
        (ofItems_single items word _ (innerDoubleStars_closed rest))
      have walked := trailingDoubleStar_append _ (innerDoubleStars (separated rest)) clean
      rw [innerDoubleStars_separator _ (ofItems_single items word _ (separated_closed rest)),
        innerDoubleStars_append _ _ clean, outer.1, walked.1, further.1]
      refine ⟨rfl, ?_⟩
      change hasTrailingDoubleStar (innerDoubleStars
        (.char '/' :: (ofItems items ++ separated rest))) = true ↔ _
      rw [innerDoubleStars_separator _ (ofItems_single items word _ (separated_closed rest)),
        innerDoubleStars_append _ _ clean, outer.2, walked.2, further.2]
      cases rest <;> simp

theorem holdDoubleStars_below (segments : List Segment) (proper : Segment.Proper segments) :
    holdDoubleStars (below segments) = below segments := by
  fun_induction below segments with
  | case1 => rfl
  | case2 => rfl
  | case3 next rest ih =>
    obtain ⟨items, rfl, word⟩ := proper.next
    rw [holdDoubleStars.eq_2 _ _ (by simp)]
    change _ :: holdDoubleStars (ofItems items ++ below rest) = _
    rw [holdDoubleStars_items items word _ (below_closed rest), ih proper.tail.tail]
    rfl
  | case4 segment rest single several ih =>
    cases segment with
    | doubleStar =>
      cases rest with
      | nil => exact absurd rfl (single rfl)
      | cons next rest => exact absurd rfl (several next rest rfl)
    | word items =>
      have word := proper.words items (by simp)
      rw [holdDoubleStars.eq_2 _ _ (by simp)]
      change _ :: holdDoubleStars (ofItems items ++ below rest) = _
      rw [holdDoubleStars_items items word _ (below_closed rest), ih proper.tail]
      rfl

/-- The marks that a word can end up as. -/
def Fills (items : List Item) (marks : List Mark) : Prop :=
  marks = items.map ofItem ∨ (items = [.anyRun] ∧ marks = [.wholeName])

/-- The marks that segments can end up as, each with its separator. -/
inductive Renders : List Segment → List Mark → Prop
  | nil : Renders [] []
  | trailing : Renders [.doubleStar] [.trailingPath]
  | inner {items : List Item} {marks : List Mark} {segments : List Segment} {more : List Mark}
      (word : IsWord items) (filled : Fills items marks) (rest : Renders segments more) :
      Renders (.doubleStar :: .word items :: segments) (.innerPath :: (marks ++ more))
  | next {items : List Item} {marks : List Mark} {segments : List Segment} {more : List Mark}
      (word : IsWord items) (filled : Fills items marks) (rest : Renders segments more) :
      Renders (.word items :: segments) (.char '/' :: (marks ++ more))

/-- A separator opens no segment `*` where what follows it goes on. -/
theorem starSegments_separator (marks : List Mark)
    (open_ : ∀ rest, marks = .char '*' :: rest →
      isFinal rest = false ∧ ∀ more, rest ≠ .char '/' :: more) :
    starSegments (.char '/' :: marks) = .char '/' :: starSegments marks := by
  by_cases star : ∃ rest, marks = .char '*' :: rest
  · obtain ⟨rest, rfl⟩ := star
    obtain ⟨unfinished, apart⟩ := open_ rest rfl
    rw [starSegments.eq_2 _ apart, unfinished]
    rfl
  · exact starSegments.eq_3 _ _ (fun rest _ same => star ⟨_, same⟩) fun rest _ same => star ⟨_, same⟩

private theorem starSegments_word (items : List Item) (word : IsWord items)
    (several : items ≠ [.anyRun]) (rest : List Mark) :
    starSegments (.char '/' :: (ofItems items ++ rest)) =
      .char '/' :: (ofItems items ++ starSegments rest) := by
  rw [starSegments_separator, starSegments_append _ _ (ofItems_not_mem items word '/' (.inl rfl))]
  intro more same
  cases items with
  | nil => exact absurd rfl word.nonempty
  | cons first items =>
    obtain ⟨star, behind⟩ := List.cons.inj same
    obtain rfl := ofChar_star _ word first (by simp) star
    cases items with
    | nil => exact absurd rfl several
    | cons second items =>
      -- The item behind a star is neither a separator nor a line feed.
      have member : ofChar second.char ∈ ofItems (.anyRun :: second :: items) := by
        simp [ofItems]
      have slash : ofChar second.char ≠ .char '/' := fun other =>
        ofItems_not_mem _ word '/' (by simp) (other ▸ member)
      have feed : ofChar second.char ≠ .char '\n' := fun other =>
        ofItems_not_mem _ word '\n' (by simp) (other ▸ member)
      change ofChar second.char :: (ofItems items ++ rest) = more at behind
      subst behind
      refine ⟨?_, fun more same => slash (List.cons.inj same).1⟩
      rw [isFinal.eq_3 _ (by simp) fun same => feed (List.cons.inj same).1]

/-- Replacing stars below the first segment. -/
theorem renders_below : (segments : List Segment) → Segment.Proper segments →
    Renders segments (stars (starSegments (below segments)))
  | [], _ => .nil
  | [.doubleStar], _ => .trailing
  | .doubleStar :: next :: rest, proper => by
    obtain ⟨items, rfl, word⟩ := proper.next
    have clean := ofItems_not_mem items word '/' (.inl rfl)
    change Renders _ (stars (starSegments ((.innerPath :: ofItems items) ++ below rest)))
    rw [starSegments_append _ _ (by simp [clean]), List.cons_append]
    change Renders _ (.innerPath :: stars (ofItems items ++ starSegments (below rest)))
    rw [stars_items items word]
    exact .inner word (.inl rfl) (renders_below rest proper.tail.tail)
  | .word items :: rest, proper => by
    have word := proper.words items (by simp)
    have clean := ofItems_not_mem items word '/' (.inl rfl)
    have plain (same : starSegments (.char '/' :: (ofItems items ++ below rest)) =
        .char '/' :: (ofItems items ++ starSegments (below rest))) :
        Renders (.word items :: rest) (stars (starSegments (below (.word items :: rest)))) := by
      change Renders _ (stars (starSegments (.char '/' :: (ofItems items ++ below rest))))
      rw [same]
      change Renders _ (.char '/' :: stars (ofItems items ++ starSegments (below rest)))
      rw [stars_items items word]
      exact .next word (.inl rfl) (renders_below rest proper.tail)
    by_cases several : items = [.anyRun]
    · subst several
      match rest, proper with
      | [], _ => exact .next word (.inr ⟨rfl, rfl⟩) .nil
      | [.doubleStar], _ => exact plain rfl
      | .doubleStar :: next :: rest, _ => exact plain rfl
      | .word others :: rest, proper =>
        -- The separator behind the star is spent, so a star behind it is any part of a name.
        have wordToo := proper.words others (by simp)
        have cleanToo := ofItems_not_mem others wordToo '/' (.inl rfl)
        change Renders _ (.char '/' :: .wholeName :: .char '/' ::
          stars (starSegments (ofItems others ++ below rest)))
        rw [starSegments_append _ _ cleanToo, stars_items others wordToo]
        exact .next word (.inr ⟨rfl, rfl⟩)
          (.next wordToo (.inl rfl) (renders_below rest proper.tail.tail))
    · exact plain (starSegments_word items word several _)

/-! ## The whole text -/

private theorem ofItem_nul (items : List Item) (word : IsWord items) :
    .char '\x00' ∉ items.map ofItem := by
  intro member
  obtain ⟨item, inside, same⟩ := List.mem_map.mp member
  have ordinary := word.char item inside
  cases item with
  | literal c =>
    have nul := (ofChar_eq_char c _ rfl (by decide)).mp same
    simp [Item.char, nul] at ordinary
  | anyChar | anyRun => cases same

private theorem fills_nul (items : List Item) (word : IsWord items) (marks : List Mark)
    (filled : Fills items marks) : .char '\x00' ∉ marks := by
  rcases filled with rfl | ⟨_, rfl⟩
  · exact ofItem_nul items word
  · simp

theorem Renders.nul {segments : List Segment} {marks : List Mark}
    (rendered : Renders segments marks) : .char '\x00' ∉ marks := by
  induction rendered with
  | nil => simp
  | trailing => simp
  | inner word filled _ ih => simp [fills_nul _ word _ filled, ih]
  | next word filled _ ih => simp [fills_nul _ word _ filled, ih]

/-- Every star is replaced behind a `**` at the front, if there is one. -/
private theorem closeWildcards_front (front : List Mark)
    (leads : front = [] ∨ front = [.leadingPath]) (items : List Item) (word : IsWord items)
    (rest : List Segment) (proper : Segment.Proper rest) :
    closeWildcards (front ++ (ofItems items ++ below rest)) =
      front ++ (items.map ofItem ++ stars (starSegments (below rest))) := by
  -- The steps go over the front and the word without looking for anything in them.
  have held : holdDoubleStars (front ++ (ofItems items ++ below rest)) =
      front ++ (ofItems items ++ below rest) := by
    have behind := holdDoubleStars_items items word _ (below_closed rest)
    rw [holdDoubleStars_below rest proper] at behind
    rcases leads with rfl | rfl
    · exact behind
    · rw [List.singleton_append, holdDoubleStars.eq_2 _ _ (by simp), behind]
  have absent : .char '/' ∉ front := by rcases leads with rfl | rfl <;> simp
  have clean := ofItems_not_mem items word '/' (.inl rfl)
  have starred : stars front = front := by rcases leads with rfl | rfl <;> rfl
  rw [closeWildcards, held, starSegments_append _ _ absent, starSegments_append _ _ clean, stars,
    List.map_append, ← stars, ← stars, starred, stars_items items word]
  refine releaseDoubleStars_of_not_mem _ ?_
  have nul : .char '\x00' ∉ front := by rcases leads with rfl | rfl <;> simp
  simp [nul, ofItem_nul items word, (renders_below rest proper).nul]

private theorem join_marks (segment : Segment) (segments : List Segment) :
    (Segment.join (segment :: segments)).map ofChar =
      segment.text.map ofChar ++ separated segments := by
  have whole := separated_cons segment segments
  rw [separated, Segment.trail_text _ (by simp), List.map_cons] at whole
  exact (List.cons.inj whole).2

/-- The marks of a glob that starts with a word. -/
theorem ofText_word (items : List Item) (rest : List Segment)
    (proper : Segment.Proper (.word items :: rest)) :
    ofText (Segment.join (.word items :: rest)) =
        items.map ofItem ++ stars (starSegments (below rest)) ∧
      ((Fragment.ofText (Segment.join (.word items :: rest))).forcesDirectory = true ↔
        rest.getLast? = some .doubleStar) := by
  have word := proper.words items (by simp)
  have clean := ofItems_not_mem items word '/' (.inl rfl)
  have opened : openWildcards (Segment.join (.word items :: rest)) =
      ofItems items ++ innerDoubleStars (separated rest) := by
    rw [openWildcards, unescape_of_not_mem _ (proper.plain (by simp)).2, ofChar_text, join_marks]
    change leadingDoubleStar (innerDoubleStars (ofItems items ++ separated rest)) = _
    rw [innerDoubleStars_append _ _ clean, leadingDoubleStar.eq_2]
    -- A text that starts with a word does not start with `**`.
    intro more same
    exact ofItems_single items word _ (innerDoubleStars_closed rest) ⟨_, same⟩
  have walked := trailingDoubleStar_append _ (innerDoubleStars (separated rest)) clean
  have further := trailing_inner rest proper.tail
  rw [ofText_forcesDirectory, ofText, opened, walked.1, walked.2, further.1, further.2]
  exact ⟨closeWildcards_front [] (.inl rfl) items word rest proper.tail, Iff.rfl⟩

/-- The marks of a glob that starts with a `**`. -/
theorem ofText_leading (items : List Item) (rest : List Segment)
    (proper : Segment.Proper (.doubleStar :: .word items :: rest)) :
    ofText (Segment.join (.doubleStar :: .word items :: rest)) =
        .leadingPath :: (items.map ofItem ++ stars (starSegments (below rest))) ∧
      ((Fragment.ofText (Segment.join (.doubleStar :: .word items :: rest))).forcesDirectory = true ↔
        rest.getLast? = some .doubleStar) := by
  have word := proper.words items (by simp)
  have clean := ofItems_not_mem items word '/' (.inl rfl)
  have opened : openWildcards (Segment.join (.doubleStar :: .word items :: rest)) =
      (.leadingPath :: ofItems items) ++ innerDoubleStars (separated rest) := by
    rw [openWildcards, unescape_of_not_mem _ (proper.plain (by simp)).2, ofChar_text, join_marks,
      separated_cons]
    -- No separator stands in front of this `**`, so only the step for the front of the text sees it.
    change leadingDoubleStar (innerDoubleStars
      ([.char '*', .char '*'] ++ .char '/' :: (ofItems items ++ separated rest))) = _
    rw [innerDoubleStars_append _ _ (by simp),
      innerDoubleStars_separator _ (ofItems_single items word _ (separated_closed rest)),
      innerDoubleStars_append _ _ clean]
    rfl
  have walked := trailingDoubleStar_append (.leadingPath :: ofItems items)
    (innerDoubleStars (separated rest)) (by simp [clean])
  have further := trailing_inner rest proper.tail.tail
  rw [ofText_forcesDirectory, ofText, opened, walked.1, walked.2, further.1, further.2]
  exact ⟨closeWildcards_front [.leadingPath] (.inr rfl) items word rest proper.tail.tail, Iff.rfl⟩

end Mark
end IgnoreRules.Pattern
