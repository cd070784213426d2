import IgnoreRules.Proofs.Pattern.Plain

/-!
# Replacements beside a letter

No replacement looks for a letter, so none reaches over one, and text around a letter is replaced
as the text before it and the text behind it are. Three of them look for an end of the text,
though: where the letter stands, `/*` and `/**` before it are not final, and `**/` behind it is not
leading. One more tie comes from holding `**` back as plain characters: a NUL before one of the
letters they hold might join it with what is behind.
-/

namespace IgnoreRules

theorem Text.letter_ne (c d : Char) (letter : c.isAlpha = true) (other : d.isAlpha = false) :
    c ≠ d := by
  rintro rfl
  simp [letter] at other

end IgnoreRules

namespace IgnoreRules.Pattern.Mark

/-! ## Marks that nothing looks for -/

/-- What is looked for and does not contain a mark does not reach over it. -/
private theorem start_of_seam (letter : Mark) (front rest found more : List Mark)
    (absent : letter ∉ found) (same : front ++ letter :: rest = found ++ more) :
    ∃ behind, front = found ++ behind := by
  rcases List.append_eq_append_iff.mp same with ⟨extra, longer, split⟩ | ⟨extra, shorter, _⟩
  · cases extra with
    | nil => exact ⟨[], by simpa using longer.symm⟩
    | cons first extra =>
      obtain ⟨rfl, _⟩ := List.cons.inj split
      exact absurd (by simp [longer]) absent
  · exact ⟨extra, shorter⟩

section
variable (letter : Mark) (slash : letter ≠ .char '/') (star : letter ≠ .char '*')
include slash star

theorem innerDoubleStars_seam (front rest : List Mark) :
    innerDoubleStars (front ++ letter :: rest) =
      innerDoubleStars front ++ letter :: innerDoubleStars rest := by
  fun_induction innerDoubleStars front with
  | case1 front ih => simp [innerDoubleStars, ih]
  | case2 mark front other ih =>
    rw [List.cons_append, innerDoubleStars.eq_2, ih, List.cons_append]
    intro more first same
    obtain ⟨behind, rfl⟩ := start_of_seam letter front rest
      [.char '*', .char '*', .char '/'] more (by simp [slash, star]) same
    exact other behind first rfl
  | case3 => exact innerDoubleStars.eq_2 _ _ fun _ same _ => slash same

theorem leadingDoubleStar_seam (front rest : List Mark) :
    leadingDoubleStar (front ++ letter :: rest) = leadingDoubleStar front ++ letter :: rest := by
  fun_cases leadingDoubleStar front with
  | case1 front => rfl
  | case2 front other =>
    rw [leadingDoubleStar.eq_2]
    intro more same
    obtain ⟨behind, rfl⟩ := start_of_seam letter front rest
      [.char '*', .char '*', .char '/'] more (by simp [slash, star]) same
    exact other behind rfl

omit slash in
theorem holdDoubleStars_seam (front rest : List Mark) :
    holdDoubleStars (front ++ letter :: rest) =
      holdDoubleStars front ++ letter :: holdDoubleStars rest := by
  fun_induction holdDoubleStars front with
  | case1 front ih => simp [holdDoubleStars, ih]
  | case2 mark front other ih =>
    rw [List.cons_append, holdDoubleStars.eq_2, ih, List.cons_append]
    intro more first same
    obtain ⟨behind, rfl⟩ := start_of_seam letter front rest [.char '*'] more (by simp [star]) same
    exact other behind first rfl
  | case3 => exact holdDoubleStars.eq_2 _ _ fun _ same _ => star same

omit slash star in
theorem releaseDoubleStars_seam (unheld : letter ∉ heldDoubleStar) (front rest : List Mark) :
    releaseDoubleStars (front ++ letter :: rest) =
      releaseDoubleStars front ++ letter :: releaseDoubleStars rest := by
  have found (marks more : List Mark) (same : marks ++ letter :: rest = heldDoubleStar ++ more) :
      ∃ behind, marks = heldDoubleStar ++ behind :=
    start_of_seam letter marks rest _ more unheld same
  fun_induction releaseDoubleStars front with
  | case1 front ih => simp [releaseDoubleStars, ih]
  | case2 mark front other ih =>
    rw [List.cons_append, releaseDoubleStars.eq_2, ih, List.cons_append]
    rintro more rfl same
    obtain ⟨behind, split⟩ :=
      found (.char '\x00' :: front) more (by rw [List.cons_append, same]; rfl)
    exact other behind rfl (List.cons.inj split).2
  | case3 =>
    refine releaseDoubleStars.eq_2 _ _ ?_
    rintro _ rfl _
    exact unheld (by simp [heldDoubleStar, Pattern.heldDoubleStar])

end

/-! ## Marks that look final -/

/-- Nothing before a letter is final. -/
theorem isFinal_seam (letter : Mark) (feed : letter ≠ .char '\n') (front rest : List Mark) :
    isFinal (front ++ letter :: rest) = false := by
  rw [isFinal.eq_3]
  · simp
  · intro same
    cases front with
    | nil => exact feed (List.cons.inj same).1
    | cons mark front => simp at same

/-- A `/**` before a letter stays, and one behind it does what it does without the text before. -/
theorem trailingDoubleStar_seam (letter : Mark) (slash : letter ≠ .char '/')
    (star : letter ≠ .char '*') (feed : letter ≠ .char '\n') (front rest : List Mark) :
    trailingDoubleStar (front ++ letter :: rest) = front ++ letter :: trailingDoubleStar rest ∧
      hasTrailingDoubleStar (front ++ letter :: rest) = hasTrailingDoubleStar rest := by
  induction front with
  | nil =>
    have other (more : List Mark) (same : letter = .char '/')
        (_ : rest = .char '*' :: .char '*' :: more) : False := slash same
    exact ⟨trailingDoubleStar.eq_2 _ _ other, hasTrailingDoubleStar.eq_2 _ _ other⟩
  | cons mark front ih =>
    rw [List.cons_append, List.cons_append, ← ih.1, ← ih.2]
    by_cases found : ∃ more, mark = .char '/' ∧
        front ++ letter :: rest = .char '*' :: .char '*' :: more
    · obtain ⟨more, rfl, same⟩ := found
      obtain ⟨behind, rfl⟩ :=
        start_of_seam letter front rest [.char '*', .char '*'] more (by simp [star]) same
      have unfinished : isFinal (behind ++ letter :: rest) = false :=
        isFinal_seam letter feed behind rest
      simp [trailingDoubleStar, hasTrailingDoubleStar, unfinished]
    · have other (more : List Mark) (first : mark = .char '/')
          (same : front ++ letter :: rest = .char '*' :: .char '*' :: more) : False :=
        found ⟨more, first, same⟩
      exact ⟨trailingDoubleStar.eq_2 _ _ other, hasTrailingDoubleStar.eq_2 _ _ other⟩

theorem trailingDoubleStar_of_none (marks : List Mark)
    (none : hasTrailingDoubleStar marks = false) : trailingDoubleStar marks = marks := by
  fun_induction trailingDoubleStar marks with
  | case1 rest final => simp [hasTrailingDoubleStar, final] at none
  | case2 rest open_ ih =>
    simp only [hasTrailingDoubleStar, Bool.or_eq_false_iff] at none
    rw [ih none.2]
  | case3 mark rest other ih =>
    rw [hasTrailingDoubleStar.eq_2 _ _ other] at none
    rw [ih none]
  | case4 => rfl

/-- Segments before a letter are replaced as without it, unless the last of them is only one
because the text ends. -/
theorem starSegments_seam (letter : Mark) (slash : letter ≠ .char '/') (star : letter ≠ .char '*')
    (feed : letter ≠ .char '\n') (front rest : List Mark) (inLine : .char '\n' ∉ front)
    (open_ : (starSegments front).getLast? ≠ some .wholeName) :
    starSegments (front ++ letter :: rest) = starSegments front ++ letter :: starSegments rest := by
  -- What ends in a whole name behind some mark does so without the mark.
  have behind (mark : Mark) (marks : List Mark)
      (ends : (mark :: marks).getLast? ≠ some .wholeName) :
      marks.getLast? ≠ some .wholeName := by
    intro same
    exact ends (by simp [List.getLast?_cons, same])
  fun_induction starSegments front with
  | case1 front ih =>
    simp only [List.mem_cons, not_or] at inLine
    have further := ih inLine.2.2.2 (behind _ _ (behind _ _ (behind _ _ open_)))
    simp [starSegments, further]
  | case2 front closed final =>
    unfold isFinal at final
    split at final
    next => simp at open_
    next => simp at inLine
    next => cases final
  | case3 front closed unfinished ih =>
    simp only [List.mem_cons, not_or] at inLine
    have further := ih (by simp [inLine]) (behind _ _ open_)
    rw [List.cons_append] at further
    rw [List.cons_append, List.cons_append, starSegments.eq_2, isFinal_seam letter feed, further]
    · rfl
    · intro more same
      obtain ⟨others, rfl⟩ :=
        start_of_seam letter front rest [.char '/'] more (by simp [slash]) same
      exact closed others rfl
  | case4 mark front closed other ih =>
    simp only [List.mem_cons, not_or] at inLine
    rw [List.cons_append, starSegments.eq_3, ih inLine.2 (behind _ _ open_), List.cons_append]
    · intro more first same
      obtain ⟨others, rfl⟩ :=
        start_of_seam letter front rest [.char '*', .char '/'] more (by simp [slash, star]) same
      exact closed others first rfl
    · intro more first same
      obtain ⟨others, rfl⟩ := start_of_seam letter front rest [.char '*'] more (by simp [star]) same
      exact other others first rfl
  | case5 => exact starSegments.eq_3 _ _ (fun _ same _ => slash same) fun _ same _ => slash same

/-! ## Held stars -/

/-- Put the mark for any text in the place of every `**` at once. -/
def placeDoubleStars : List Mark → List Mark
  | .char '*' :: .char '*' :: rest => .anyText :: placeDoubleStars rest
  | mark :: rest => mark :: placeDoubleStars rest
  | [] => []

/-- Hold back every mark for any text. -/
def hold (marks : List Mark) : List Mark :=
  marks.flatMap fun
    | .anyText => heldDoubleStar
    | mark => [mark]

theorem hold_anyText (marks : List Mark) :
    hold (.anyText :: marks) = heldDoubleStar ++ hold marks := rfl

theorem hold_cons (mark : Mark) (other : mark ≠ .anyText) (marks : List Mark) :
    hold (mark :: marks) = mark :: hold marks := by
  cases mark with
  | anyText => exact absurd rfl other
  | _ => rfl

/-- What is held back starts with a NUL. -/
theorem hold_eq_append (found marks rest : List Mark) (nul : .char '\x00' ∉ found)
    (same : hold marks = found ++ rest) : ∃ more, marks = found ++ more ∧ hold more = rest := by
  induction found generalizing marks with
  | nil => exact ⟨marks, rfl, same⟩
  | cons first found ih =>
    simp only [List.mem_cons, not_or] at nul
    cases marks with
    | nil => cases same
    | cons mark marks =>
      by_cases any : mark = .anyText
      · subst any
        exact absurd (List.cons.inj same).1 nul.1
      · rw [hold_cons _ any] at same
        obtain ⟨rfl, behind⟩ := List.cons.inj same
        obtain ⟨more, rfl, held⟩ := ih marks nul.2 behind
        exact ⟨more, rfl, held⟩

theorem holdDoubleStars_eq (marks : List Mark) (built : .anyText ∉ marks) :
    holdDoubleStars marks = hold (placeDoubleStars marks) := by
  fun_induction holdDoubleStars marks with
  | case1 rest ih =>
    simp only [List.mem_cons, not_or] at built
    rw [placeDoubleStars, hold_anyText, ih built.2.2]
  | case2 mark rest other ih =>
    simp only [List.mem_cons, not_or] at built
    rw [placeDoubleStars.eq_2 _ _ other, hold_cons _ (Ne.symm built.1), ih built.2]
  | case3 => rfl

theorem isFinal_hold (marks : List Mark) : isFinal (hold marks) = isFinal marks := by
  fun_cases isFinal marks with
  | case1 => rfl
  | case2 => rfl
  | case3 marks some other =>
    rw [isFinal.eq_3]
    · intro none
      obtain ⟨mark, more, rfl⟩ := List.exists_cons_of_ne_nil some
      cases mark <;> cases none
    · intro single
      obtain ⟨more, rfl, none⟩ := hold_eq_append [.char '\n'] marks [] (by simp) single
      cases more with
      | nil => exact other rfl
      | cons mark more => cases mark <;> cases none

theorem starSegments_hold (marks : List Mark) :
    starSegments (hold marks) = hold (starSegments marks) := by
  fun_induction starSegments marks with
  | case1 rest ih => simp [hold_cons, starSegments, ih]
  | case2 rest closed final =>
    simp only [hold_cons, ne_eq, reduceCtorEq, not_false_eq_true]
    rw [starSegments.eq_2, isFinal_hold, if_pos final]
    intro more same
    obtain ⟨others, rfl, _⟩ := hold_eq_append [.char '/'] rest more (by simp) same
    exact closed others rfl
  | case3 rest closed unfinished ih =>
    simp only [hold_cons, ne_eq, reduceCtorEq, not_false_eq_true] at ih ⊢
    rw [starSegments.eq_2, isFinal_hold, if_neg unfinished, ih]
    intro more same
    obtain ⟨others, rfl, _⟩ := hold_eq_append [.char '/'] rest more (by simp) same
    exact closed others rfl
  | case4 mark rest closed other ih =>
    by_cases any : mark = .anyText
    · subst any
      rw [hold_anyText, starSegments_append _ _ (by simp [heldDoubleStar, Pattern.heldDoubleStar]),
        ih, hold_anyText]
    · rw [hold_cons _ any, hold_cons _ any, starSegments.eq_3, ih]
      · intro more first same
        obtain ⟨others, rfl, _⟩ := hold_eq_append [.char '*', .char '/'] rest more (by simp) same
        exact closed others first rfl
      · intro more first same
        obtain ⟨others, rfl, _⟩ := hold_eq_append [.char '*'] rest more (by simp) same
        exact other others first rfl
  | case5 => rfl

theorem stars_hold (marks : List Mark) : stars (hold marks) = hold (stars marks) := by
  induction marks with
  | nil => rfl
  | cons mark marks ih =>
    change stars (_ ++ hold marks) = hold (_ :: stars marks)
    rw [stars, List.map_append, ← stars, ← stars, ih]
    cases mark with
    | char c => by_cases star : c = '*' <;> simp [stars, star, hold]
    | _ => rfl

/-- Of marks without a NUL all that was held back is released, whatever follows them. -/
theorem releaseDoubleStars_hold (marks rest : List Mark) (nul : .char '\x00' ∉ marks) :
    releaseDoubleStars (hold marks ++ rest) = marks ++ releaseDoubleStars rest := by
  induction marks with
  | nil => rfl
  | cons mark marks ih =>
    simp only [List.mem_cons, not_or] at nul
    by_cases any : mark = .anyText
    · subst any
      rw [List.cons_append, ← ih nul.2]
      rfl
    · rw [hold_cons _ any, List.cons_append, List.cons_append, releaseDoubleStars.eq_2, ih nul.2]
      exact fun _ first _ => nul.1 first.symm

theorem release_hold (marks : List Mark) (nul : .char '\x00' ∉ marks) :
    releaseDoubleStars (hold marks) = marks := by
  have released := releaseDoubleStars_hold marks [] nul
  simpa only [releaseDoubleStars, List.append_nil] using released

theorem placeDoubleStars_append (front rest : List Mark) (absent : .char '*' ∉ front) :
    placeDoubleStars (front ++ rest) = front ++ placeDoubleStars rest := by
  induction front with
  | nil => rfl
  | cons mark front ih =>
    simp only [List.mem_cons, not_or] at absent
    rw [List.cons_append, placeDoubleStars.eq_2 _ _ fun _ same _ => absent.1 same.symm, ih absent.2,
      List.cons_append]

theorem placeDoubleStars_of_not_mem (marks : List Mark) (absent : .char '*' ∉ marks) :
    placeDoubleStars marks = marks := by
  have placed := placeDoubleStars_append marks [] absent
  rwa [List.append_nil, placeDoubleStars, List.append_nil] at placed

theorem mem_placeDoubleStars (mark : Mark) (marks : List Mark)
    (member : mark ∈ placeDoubleStars marks) : mark ∈ marks ∨ mark = .anyText := by
  fun_induction placeDoubleStars marks with grind

theorem nul_stars (marks : List Mark) (nul : .char '\x00' ∉ marks) :
    .char '\x00' ∉ stars (starSegments (placeDoubleStars marks)) := by
  intro member
  obtain ⟨source, present, same⟩ := List.mem_map.mp member
  cases source with
  | char c =>
    dsimp only at same
    split at same
    next => cases same
    next =>
      cases same
      rcases mem_starSegments _ _ present with present | other
      · rcases mem_placeDoubleStars _ _ present with present | other
        · exact nul present
        · cases other
      · cases other
  | _ => cases same

/-- Without a NUL the last steps replace every `**` before the single stars, as if none had been
held back. -/
theorem closeWildcards_eq (marks : List Mark) (built : .anyText ∉ marks)
    (nul : .char '\x00' ∉ marks) :
    closeWildcards marks = stars (starSegments (placeDoubleStars marks)) := by
  rw [closeWildcards, holdDoubleStars_eq marks built, starSegments_hold, stars_hold,
    release_hold _ (nul_stars marks nul)]

private theorem stars_seam (letter : Mark) (star : letter ≠ .char '*') (front rest : List Mark) :
    stars (front ++ letter :: rest) = stars front ++ letter :: stars rest := by
  have single : stars [letter] = [letter] := by
    cases letter with
    | char c => simp [stars, show c ≠ '*' from fun same => star (by rw [same])]
    | _ => rfl
  change (front ++ ([letter] ++ rest)).map _ = stars front ++ ([letter] ++ stars rest)
  rw [List.map_append, List.map_append, ← stars, ← stars, ← stars, single]

/-- Before a letter the last steps do what they do at the end of the text, unless a segment there is
only one because the text ends. -/
theorem closeWildcards_seam (letter : Mark) (slash : letter ≠ .char '/') (star : letter ≠ .char '*')
    (feed : letter ≠ .char '\n') (null : letter ≠ .char '\x00') (front rest : List Mark)
    (built : .anyText ∉ front) (inLine : .char '\n' ∉ front)
    (unheld : letter ∉ heldDoubleStar ∨ .char '\x00' ∉ front)
    (open_ : (closeWildcards front).getLast? ≠ some .wholeName) :
    closeWildcards (front ++ letter :: rest) =
      closeWildcards front ++ letter :: closeWildcards rest := by
  have unfinished : (starSegments (holdDoubleStars front)).getLast? ≠ some .wholeName := by
    intro ends
    obtain ⟨segments, same⟩ := List.getLast?_eq_some_iff.mp ends
    refine open_ ?_
    rw [closeWildcards, same, stars_seam _ (by simp),
      releaseDoubleStars_seam _ (by simp [heldDoubleStar, Pattern.heldDoubleStar])]
    exact List.getLast?_concat
  have inLineToo : .char '\n' ∉ holdDoubleStars front := by
    intro member
    rcases mem_holdDoubleStars _ _ member with member | member
    · exact inLine member
    · simp [heldDoubleStar, Pattern.heldDoubleStar] at member
  rw [closeWildcards, holdDoubleStars_seam letter star,
    starSegments_seam letter slash star feed _ _ inLineToo unfinished, stars_seam letter star]
  rcases unheld with other | nul
  · exact releaseDoubleStars_seam letter other _ _
  · have held : stars (starSegments (holdDoubleStars front)) =
        hold (stars (starSegments (placeDoubleStars front))) := by
      rw [holdDoubleStars_eq front built, starSegments_hold, stars_hold]
    rw [closeWildcards_eq front built nul, held, releaseDoubleStars_hold _ _ (nul_stars front nul),
      releaseDoubleStars.eq_2 _ _ fun _ first _ => null first]
    rfl

/-! ## Marks that stay -/

section
variable (mark : Mark) (slash : mark ≠ .char '/') (star : mark ≠ .char '*')
include slash star

theorem innerDoubleStars_keeps (marks : List Mark) (member : mark ∈ marks) :
    mark ∈ innerDoubleStars marks := by
  fun_induction innerDoubleStars marks with grind

theorem leadingDoubleStar_keeps (marks : List Mark) (member : mark ∈ marks) :
    mark ∈ leadingDoubleStar marks := by
  fun_cases leadingDoubleStar marks with grind

theorem trailingDoubleStar_keeps (marks : List Mark) (member : mark ∈ marks) :
    mark ∈ trailingDoubleStar marks := by
  fun_induction trailingDoubleStar marks with grind

omit slash in
theorem holdDoubleStars_keeps (marks : List Mark) (member : mark ∈ marks) :
    mark ∈ holdDoubleStars marks := by
  fun_induction holdDoubleStars marks with grind

theorem starSegments_keeps (marks : List Mark) (member : mark ∈ marks) :
    mark ∈ starSegments marks := by
  fun_induction starSegments marks with grind

end

theorem releaseDoubleStars_keeps (mark : Mark) (unheld : mark ∉ heldDoubleStar) (marks : List Mark)
    (member : mark ∈ marks) : mark ∈ releaseDoubleStars marks := by
  fun_induction releaseDoubleStars marks with
  | case1 rest ih =>
    change mark ∈ heldDoubleStar ++ rest at member
    exact List.mem_cons_of_mem _ (ih ((List.mem_append.mp member).resolve_left unheld))
  | case2 first rest _ ih =>
    rcases List.mem_cons.mp member with rfl | member
    · exact List.mem_cons_self
    · exact List.mem_cons_of_mem _ (ih member)
  | case3 => exact member

theorem lineFeed_mem_ofText (text : List Char) (escapes : '\\' ∉ text) (member : '\n' ∈ text) :
    .char '\n' ∈ ofText text := by
  have plain : .char '\n' ∈ questionMarks (escapeSpecial (text.map .char)) := by
    simp only [questionMarks, escapeSpecial, List.map_map, List.mem_map]
    exact ⟨'\n', member, rfl⟩
  have opened : .char '\n' ∈ openWildcards text := by
    rw [openWildcards, unescape_of_not_mem _ escapes]
    exact leadingDoubleStar_keeps _ (by simp) (by simp) _
      (innerDoubleStars_keeps _ (by simp) (by simp) _ plain)
  have segments : .char '\n' ∈
      starSegments (holdDoubleStars (trailingDoubleStar (openWildcards text))) :=
    starSegments_keeps _ (by simp) (by simp) _ (holdDoubleStars_keeps _ (by simp) _
      (trailingDoubleStar_keeps _ (by simp) (by simp) _ opened))
  refine releaseDoubleStars_keeps _ (by simp [heldDoubleStar, Pattern.heldDoubleStar]) _ ?_
  exact List.mem_map.mpr ⟨_, segments, rfl⟩

/-! ## Text around a letter -/

/-- Nothing is read otherwise because the text is cut at a letter: no `/*` in front of the letter is
taken for a whole segment and no `/**` for a final one, no `**/` behind it is taken for a leading
one, and the letter is not within what stands for `**` while that is held back. -/
structure Seamless (before : List Char) (c : Char) (behind : List Char) : Prop where
  segment : ¬escapeSeparators Pattern.wholeName <:+ (Fragment.ofText before).source
  below : (Fragment.ofText before).forcesDirectory = false
  leading : ¬escapeSeparators Pattern.leadingPath <+: (Fragment.ofText behind).source
  unheld : c ∉ Pattern.heldDoubleStar ∨ '\x00' ∉ before

theorem letter_ordinary (c : Char) (letter : c.isAlpha = true) : isSpecial c = false := by
  cases special : isSpecial c with
  | false => rfl
  | true =>
    have reserved := special_not_alphanumeric c special
    simp [Char.isAlphanum, letter] at reserved

private theorem plain_letter (before behind : List Char) (c : Char) (letter : c.isAlpha = true) :
    questionMarks (escapeSpecial ((before ++ c :: behind).map .char)) =
      questionMarks (escapeSpecial (before.map .char)) ++
        .char c :: questionMarks (escapeSpecial (behind.map .char)) := by
  have question : c ≠ '?' := Text.letter_ne c '?' letter rfl
  simp [questionMarks, escapeSpecial, letter_ordinary c letter, question]

theorem openWildcards_letter (before behind : List Char) (c : Char) (letter : c.isAlpha = true)
    (escapes : '\\' ∉ before ++ c :: behind) :
    openWildcards (before ++ c :: behind) = openWildcards before ++
      .char c :: innerDoubleStars (questionMarks (escapeSpecial (behind.map .char))) := by
  have apart (d : Char) (other : d.isAlpha = false) : Mark.char c ≠ .char d := fun same =>
    Text.letter_ne c d letter other (Mark.char.inj same)
  have escapesBefore : '\\' ∉ before := fun member => escapes (List.mem_append_left _ member)
  rw [openWildcards, openWildcards, unescape_of_not_mem _ escapes,
    unescape_of_not_mem _ escapesBefore, plain_letter _ _ _ letter,
    innerDoubleStars_seam _ (apart _ rfl) (apart _ rfl),
    leadingDoubleStar_seam _ (apart _ rfl) (apart _ rfl)]

/-- A character that is left has been there from the start. -/
theorem mem_openWildcards (c : Char) (text : List Char)
    (member : .char c ∈ openWildcards text) : c ∈ text := by
  rcases mem_leadingDoubleStar _ _ member with member | other
  · rcases mem_innerDoubleStars _ _ member with member | other
    · simp only [questionMarks, escapeSpecial, List.map_map, List.mem_map,
        Function.comp_apply] at member
      obtain ⟨d, present, same⟩ := member
      by_cases special : isSpecial d = true
      · simp [special] at same
      · by_cases question : d = '?'
        · simp [question, show isSpecial '?' = false from rfl] at same
        · simp only [special, question, Bool.false_eq_true, dite_false, if_false,
            Mark.char.injEq] at same
          exact mem_unescape text c (same ▸ present)
    · cases other
  · cases other

private theorem source_closed (text : List Char)
    (segment : ¬escapeSeparators Pattern.wholeName <:+ (Fragment.ofText text).source) :
    (ofText text).getLast? ≠ some .wholeName := by
  intro ends
  obtain ⟨front, same⟩ := List.getLast?_eq_some_iff.mp ends
  refine segment ⟨front.flatMap source, ?_⟩
  rw [ofText_source, same, List.flatMap_append]
  simp [source, Mark.text]

private theorem leading_kept (text : List Char) (escapes : '\\' ∉ text)
    (leading : ¬escapeSeparators Pattern.leadingPath <+: (Fragment.ofText text).source) :
    openWildcards text = innerDoubleStars (questionMarks (escapeSpecial (text.map .char))) := by
  rw [openWildcards, unescape_of_not_mem _ escapes]
  generalize opened : innerDoubleStars (questionMarks (escapeSpecial (text.map .char))) = marks
  fun_cases leadingDoubleStar marks with
  | case1 rest =>
    -- The mark for the leading path would stay in front through all the steps.
    refine absurd ?_ leading
    rw [ofText_source, ofText, openWildcards, unescape_of_not_mem _ escapes, opened]
    exact ⟨_, rfl⟩
  | case2 => rfl

/-- Around a letter the marks of a text are those of its two parts. -/
theorem ofText_letter (before behind : List Char) (c : Char) (letter : c.isAlpha = true)
    (escapes : '\\' ∉ before ++ c :: behind) (inLine : '\n' ∉ before)
    (seamless : Seamless before c behind) :
    ofText (before ++ c :: behind) = ofText before ++ .char c :: ofText behind ∧
      (Fragment.ofText (before ++ c :: behind)).forcesDirectory =
        (Fragment.ofText behind).forcesDirectory := by
  have apart (d : Char) (other : d.isAlpha = false) : Mark.char c ≠ .char d := fun same =>
    Text.letter_ne c d letter other (Mark.char.inj same)
  have escapesBefore : '\\' ∉ before := fun member => escapes (List.mem_append_left _ member)
  have escapesBehind : '\\' ∉ behind := fun member => escapes (by simp [member])
  have below := seamless.below
  rw [ofText_forcesDirectory] at below
  have alone : ofText before = closeWildcards (openWildcards before) := by
    rw [ofText, trailingDoubleStar_of_none _ below]
  have opened := openWildcards_letter before behind c letter escapes
  rw [← leading_kept behind escapesBehind seamless.leading] at opened
  obtain ⟨trailing, forces⟩ := trailingDoubleStar_seam (.char c) (apart _ rfl) (apart _ rfl)
    (apart _ rfl) (openWildcards before) (openWildcards behind)
  have closed := closeWildcards_seam (.char c) (apart _ rfl) (apart _ rfl) (apart _ rfl)
    (apart _ rfl) (openWildcards before) (trailingDoubleStar (openWildcards behind))
    (fun member => (unsettled_openWildcards before _ member).1)
    (fun member => inLine (mem_openWildcards _ _ member))
    (seamless.unheld.imp (fun other member => other (by simpa [heldDoubleStar] using member))
      fun nul member => nul (mem_openWildcards _ _ member))
    (alone ▸ source_closed before seamless.segment)
  rw [ofText_forcesDirectory, ofText_forcesDirectory, opened, forces]
  refine ⟨?_, rfl⟩
  rw [ofText, opened, trailing, closed, alone, ofText]

end IgnoreRules.Pattern.Mark
