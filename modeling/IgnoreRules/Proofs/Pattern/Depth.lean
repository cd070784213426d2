import IgnoreRules.Proofs.Pattern.Letter
import IgnoreRules.Proofs.Pattern.Literal
import Mathlib.Data.List.Forall2
import IgnoreRules.Text.AsciiNames

/-!
# Segments and entries

A rule should need an entry for every segment of its pattern. In the path of a directory, though,
there is one separator more than there are entries, and a last segment that may stand for nothing is
found behind it. The replacement of segments `*` by whole names is there to prevent that. It needs
the separators on both sides of the `*` and takes the one behind it along, so it passes over a `*`
behind one that it has just replaced, and over one that has no separator in front of it.
-/

namespace IgnoreRules.Pattern

/-- Text that may stand for nothing: stars, and what stands for `**` while they are replaced. -/
def hollow : List Char → Bool
  | '*' :: rest => hollow rest
  | '\x00' :: 'D' :: 'O' :: 'U' :: 'B' :: 'L' :: 'E' :: 'S' :: 'T' :: 'A' :: 'R' :: '\x00' ::
      rest => hollow rest
  | [] => true
  | _ => false

/-- The separator in front of what follows these segments is spent, because the last of them is a
`*` that has taken it. In front of the first segment that depends on what is before it. -/
def spends : Bool → List (List Char) → Bool
  | spent, [] => spent
  | spent, segment :: rest => spends (segment = ['*'] && !spent) rest

namespace Mark

/-! ## The marks of segments -/

/-- Two stars next to each other. -/
def Paired (marks : List Mark) : Prop := [.char '*', .char '*'] <:+: marks

theorem Paired.cons {mark : Mark} {marks : List Mark} (paired : Paired marks) :
    Paired (mark :: marks) := List.IsInfix.trans paired (List.suffix_cons mark marks).isInfix

theorem innerDoubleStars_of_unpaired (marks : List Mark) (unpaired : ¬Paired marks) :
    innerDoubleStars marks = marks := by
  fun_induction innerDoubleStars marks with
  | case1 rest => exact absurd ⟨[.char '/'], .char '/' :: rest, rfl⟩ unpaired
  | case2 mark rest _ ih => rw [ih fun paired => unpaired paired.cons]
  | case3 => rfl

theorem leadingDoubleStar_of_unpaired (marks : List Mark) (unpaired : ¬Paired marks) :
    leadingDoubleStar marks = marks := by
  fun_cases leadingDoubleStar marks with
  | case1 rest => exact absurd ⟨[], .char '/' :: rest, rfl⟩ unpaired
  | case2 => rfl

theorem hasTrailingDoubleStar_of_unpaired (marks : List Mark) (unpaired : ¬Paired marks) :
    hasTrailingDoubleStar marks = false := by
  fun_induction hasTrailingDoubleStar marks with
  | case1 rest => exact absurd ⟨[.char '/'], rest, rfl⟩ unpaired
  | case2 mark rest _ ih => exact ih fun paired => unpaired paired.cons
  | case3 => rfl

theorem holdDoubleStars_of_unpaired (marks : List Mark) (unpaired : ¬Paired marks) :
    holdDoubleStars marks = marks := by
  fun_induction holdDoubleStars marks with
  | case1 rest => exact absurd ⟨[], rest, rfl⟩ unpaired
  | case2 mark rest _ ih => rw [ih fun paired => unpaired paired.cons]
  | case3 => rfl

/-- What becomes of characters that mean nothing in an expression shows which they are. -/
theorem eq_of_map_ofChar (found text : List Char)
    (ordinary : ∀ c ∈ found, isSpecial c = false ∧ c ≠ '?')
    (same : text.map ofChar = found.map .char) : text = found := by
  induction found generalizing text with
  | nil => exact List.map_eq_nil_iff.mp same
  | cons c found ih =>
    obtain ⟨d, rest, rfl, first, behind⟩ := List.map_eq_cons_iff.mp same
    obtain ⟨special, question⟩ := ordinary c (by simp)
    rw [(ofChar_eq_char d c special question).mp first,
      ih rest (fun other member => ordinary other (by simp [member])) behind]

/-- Without `**` only single stars are replaced. -/
theorem ofText_unpaired (text : List Char) (escapes : '\\' ∉ text)
    (unpaired : ¬['*', '*'] <:+: text) :
    ofText text = releaseDoubleStars (stars (starSegments (text.map ofChar))) ∧
      (Fragment.ofText text).forcesDirectory = false := by
  have single : ¬Paired (text.map ofChar) := by
    rintro ⟨front, rest, same⟩
    obtain ⟨left, right, rfl, same, -⟩ := List.map_eq_append_iff.mp same.symm
    obtain ⟨before, pair, rfl, -, same⟩ := List.map_eq_append_iff.mp same
    obtain rfl := eq_of_map_ofChar ['*', '*'] pair (by simp [isSpecial]) same
    exact unpaired ⟨before, right, rfl⟩
  have opened : openWildcards text = text.map ofChar := by
    rw [openWildcards, unescape_of_not_mem text escapes, ofChar_text,
      innerDoubleStars_of_unpaired _ single, leadingDoubleStar_of_unpaired _ single]
  have none := hasTrailingDoubleStar_of_unpaired _ single
  rw [ofText_forcesDirectory, ofText, opened, trailingDoubleStar_of_none _ none, closeWildcards,
    holdDoubleStars_of_unpaired _ single]
  exact ⟨rfl, none⟩

/-- The marks of segments before single stars are replaced in them. A segment `*` is a whole name
where the separator in front of it is not spent. -/
def ofSegments : Bool → List (List Char) → List (List Mark)
  | _, [] => []
  | spent, segment :: rest =>
    (if segment = ['*'] && !spent then [.wholeName] else segment.map ofChar) ::
      ofSegments (segment = ['*'] && !spent) rest

theorem ofSegments_append (spent : Bool) (front rest : List (List Char)) :
    ofSegments spent (front ++ rest) = ofSegments spent front ++ ofSegments (spends spent front) rest := by
  induction front generalizing spent with
  | nil => rfl
  | cons segment front ih => rw [List.cons_append, ofSegments, ih, spends, ofSegments, List.cons_append]

/-- Parts with a separator before each. -/
def separate (parts : List (List Mark)) : List Mark := parts.flatMap (.char '/' :: ·)

theorem separate_cons (part : List Mark) (parts : List (List Mark)) :
    separate (part :: parts) = .char '/' :: (part ++ separate parts) := rfl

theorem map_trail (segments : List (List Char)) :
    (trail segments).map ofChar = separate (segments.map (·.map ofChar)) := by
  induction segments with
  | nil => rfl
  | cons segment segments ih =>
    rw [trail_cons, List.map_cons, List.map_append, ih, List.map_cons, separate_cons]
    rfl

/-- A segment that only starts with a star goes on behind it. -/
private theorem open_of_segment (segment : List Char) (segments : List (List Char))
    (star : segment ≠ ['*']) (whole : '/' ∉ segment) (inLine : '\n' ∉ segment) (rest : List Mark)
    (same : segment.map ofChar ++ separate (segments.map (·.map ofChar)) = .char '*' :: rest) :
    isFinal rest = false ∧ ∀ more, rest ≠ .char '/' :: more := by
  cases segment with
  | nil => cases segments <;> cases same
  | cons c segment =>
    obtain ⟨first, rfl⟩ := List.cons.inj same
    obtain rfl := (ofChar_eq_char c '*' rfl (by decide)).mp first
    cases segment with
    | nil => exact absurd rfl star
    | cons d segment =>
      simp only [List.mem_cons, not_or] at whole inLine
      have slash : ofChar d ≠ .char '/' := fun same =>
        whole.2.1 ((ofChar_eq_char d '/' rfl (by decide)).mp same).symm
      have feed : ofChar d ≠ .char '\n' := fun same =>
        inLine.2.1 ((ofChar_eq_char d '\n' rfl (by decide)).mp same).symm
      refine ⟨?_, fun more same => slash (List.cons.inj same).1⟩
      change isFinal (ofChar d :: (segment.map ofChar ++ _)) = false
      rw [isFinal.eq_3 _ (by simp) fun same => feed (List.cons.inj same).1]

/-- Replacing segments `*` goes from one segment to the next and remembers whether the separator
between them is spent. -/
theorem starSegments_walk (segments : List (List Char))
    (whole : ∀ segment ∈ segments, '/' ∉ segment) (inLine : ∀ segment ∈ segments, '\n' ∉ segment) :
    starSegments (separate (segments.map (·.map ofChar))) = separate (ofSegments false segments) ∧
      ∀ first rest, segments = first :: rest →
        .char '/' :: starSegments (first.map ofChar ++ separate (rest.map (·.map ofChar))) =
          separate (ofSegments true segments) := by
  induction segments with
  | nil => exact ⟨rfl, nofun⟩
  | cons segment segments ih =>
    obtain ⟨unspent, spent⟩ := ih (fun other member => whole other (by simp [member]))
      fun other member => inLine other (by simp [member])
    have clean := ofChar_not_mem '/' rfl (by decide) segment (whole segment (by simp))
    refine ⟨?_, ?_⟩
    · by_cases star : segment = ['*']
      · subst star
        cases segments with
        | nil => rfl
        | cons next more =>
          have behind := spent next more rfl
          change .char '/' :: .wholeName :: .char '/' ::
            starSegments (next.map ofChar ++ separate (more.map (·.map ofChar))) = _
          rw [behind]
          rfl
      · rw [List.map_cons, separate_cons, starSegments_separator, starSegments_append _ _ clean,
          unspent]
        · simp [ofSegments, star, separate_cons]
        · exact open_of_segment segment segments star (whole segment (by simp))
            (inLine segment (by simp))
    · intro first rest same
      obtain ⟨rfl, rfl⟩ := List.cons.inj same
      rw [starSegments_append _ _ clean, unspent]
      simp [ofSegments, separate_cons]

/-- The last two steps, which go through each segment by itself. -/
def settle (part : List Mark) : List Mark := releaseDoubleStars (stars part)

theorem settle_separate (parts : List (List Mark)) :
    settle (separate parts) = separate (parts.map settle) := by
  have starred (parts : List (List Mark)) : stars (separate parts) = separate (parts.map stars) := by
    induction parts with
    | nil => rfl
    | cons part parts ih =>
      rw [separate_cons, stars, List.map_cons, List.map_append, ← stars, ← stars, ih, List.map_cons,
        separate_cons]
      rfl
  have separator (rest : List Mark) :
      releaseDoubleStars (.char '/' :: rest) = .char '/' :: releaseDoubleStars rest :=
    releaseDoubleStars.eq_2 _ _ (by simp)
  have released (parts : List (List Mark)) :
      releaseDoubleStars (separate parts) = separate (parts.map releaseDoubleStars) := by
    induction parts with
    | nil => rfl
    | cons part parts ih =>
      rw [separate_cons, separator, List.map_cons, separate_cons, ← ih]
      cases parts with
      | nil => simp [separate, releaseDoubleStars]
      | cons next parts =>
        rw [separate_cons, separator,
          releaseDoubleStars_seam _ (by simp [heldDoubleStar, Pattern.heldDoubleStar])]
  rw [settle, starred, released, List.map_map]
  rfl

/-- The marks of a text without `**` are those of its segments. -/
theorem ofText_segments (text : List Char) (escapes : '\\' ∉ text)
    (unpaired : ¬['*', '*'] <:+: text) (inLine : '\n' ∉ text) :
    .char '/' :: ofText text = separate ((ofSegments true (text.splitOn '/')).map settle) := by
  obtain ⟨first, rest, split⟩ := List.exists_cons_of_ne_nil (List.splitOn_ne_nil '/' text)
  have joined : text = first ++ trail rest := by
    have whole := trail_splitOn text
    rw [split, trail_cons] at whole
    exact (List.cons.inj whole).2.symm
  have feeds : ∀ segment ∈ text.splitOn '/', '\n' ∉ segment := fun segment member feed =>
    inLine (mem_of_mem_splitOn text segment '\n' member feed)
  have walked := (starSegments_walk (text.splitOn '/') (whole_of_mem_splitOn text) feeds).2 first
    rest split
  have marks : text.map ofChar = first.map ofChar ++ separate (rest.map (·.map ofChar)) := by
    rw [← map_trail, ← List.map_append, ← joined]
  rw [← settle_separate, ← walked, (ofText_unpaired text escapes unpaired).1, marks]
  exact (releaseDoubleStars.eq_2 _ _ (by simp)).symm

/-! ## What segments take -/

/-- Parts with a separator before each take texts with a separator before each. -/
theorem acceptsAll_separate (parts : List (List Mark)) (text : List Char) :
    AcceptsAll (separate parts) text ↔
      ∃ texts, text = trail texts ∧ List.Forall₂ AcceptsAll parts texts := by
  induction parts generalizing text with
  | nil => simp [separate, AcceptsAll]
  | cons part parts ih =>
    rw [separate_cons]
    constructor
    · rintro ⟨_, _, rfl, rfl, accepted⟩
      obtain ⟨left, right, rfl, first, others⟩ := (acceptsAll_append _ _ _).mp accepted
      obtain ⟨texts, rfl, taken⟩ := (ih right).mp others
      exact ⟨left :: texts, rfl, .cons first taken⟩
    · rintro ⟨_, rfl, taken⟩
      obtain ⟨left, texts, first, others, rfl⟩ := List.forall₂_cons_left_iff.mp taken
      exact ⟨['/'], left ++ trail texts, rfl, rfl,
        (acceptsAll_append _ _ _).mpr ⟨left, _, rfl, first, (ih _).mpr ⟨texts, rfl, others⟩⟩⟩

/-- Characters that are left when stars are replaced were there before. -/
theorem eq_of_stars (marks : List Mark) (found : List Char)
    (same : stars marks = found.map .char) : marks = found.map .char := by
  induction found generalizing marks with
  | nil => exact List.map_eq_nil_iff.mp same
  | cons c found ih =>
    obtain ⟨mark, rest, rfl, first, behind⟩ := List.map_eq_cons_iff.mp same
    rw [ih rest behind, List.map_cons]
    congr 1
    cases mark with
    | char d =>
      dsimp only at first
      split at first
      next => cases first
      next => exact first
    | _ => cases first

theorem stars_character (c : Char) (other : c ≠ '*') : stars [ofChar c] = [ofChar c] := by
  refine stars_of_not_mem _ fun member => other ?_
  exact (ofChar_eq_char c '*' rfl (by decide)).mp (List.mem_singleton.mp member).symm

/-- No character stands for nothing. -/
theorem ofChar_nonempty (c : Char) : ¬(ofChar c).Accepts [] := by
  by_cases special : isSpecial c = true
  · simp [ofChar, special, Accepts]
  · by_cases question : c = '?'
    · subst question
      rintro ⟨_, same, _⟩
      cases same
    · simp [ofChar, special, question, Accepts]

/-- A segment takes nothing at all only if it is hollow. -/
theorem acceptsAll_nil_iff (segment : List Char) :
    AcceptsAll (settle (segment.map ofChar)) [] ↔ hollow segment = true := by
  have first (mark : Mark) (marks : List Mark) (accepts : mark.Accepts []) :
      AcceptsAll (mark :: marks) [] ↔ AcceptsAll marks [] := by
    constructor
    · rintro ⟨left, right, same, -, rest⟩
      obtain ⟨rfl, rfl⟩ := List.append_eq_nil_iff.mp same.symm
      exact rest
    · exact fun rest => ⟨[], [], rfl, accepts, rest⟩
  fun_induction hollow segment with
  | case1 rest ih =>
    have read : settle (('*' :: rest).map ofChar) = .namePart :: settle (rest.map ofChar) :=
      releaseDoubleStars.eq_2 .namePart _ (by simp)
    rw [read, first _ _ (by simp [Accepts])]
    exact ih
  | case2 rest ih =>
    have read : settle ((Pattern.heldDoubleStar ++ rest).map ofChar) =
        .anyText :: settle (rest.map ofChar) := rfl
    change AcceptsAll (settle ((Pattern.heldDoubleStar ++ rest).map ofChar)) [] ↔ _
    rw [read, first _ _ (by simp [Accepts])]
    exact ih
  | case3 => exact iff_of_true rfl rfl
  | case4 segment star held nonempty =>
    obtain ⟨c, rest, rfl⟩ := List.exists_cons_of_ne_nil nonempty
    have other : c ≠ '*' := by
      rintro rfl
      exact star rest rfl
    have unheld (more : List Mark) : stars ((c :: rest).map ofChar) ≠ heldDoubleStar ++ more := by
      intro same
      obtain ⟨left, right, split, same, -⟩ := List.map_eq_append_iff.mp same
      obtain ⟨front, behind, whole, rfl, -⟩ := List.map_eq_append_iff.mp split
      obtain rfl := eq_of_map_ofChar Pattern.heldDoubleStar front
        (by simp [Pattern.heldDoubleStar, isSpecial]) (eq_of_stars _ _ same)
      exact held behind whole
    refine iff_of_false ?_ (by simp)
    intro accepted
    rw [settle, List.map_cons, ← List.singleton_append, stars_append, stars_character c other,
      List.singleton_append, releaseDoubleStars.eq_2] at accepted
    · obtain ⟨left, right, same, alone, -⟩ := accepted
      obtain ⟨rfl, -⟩ := List.append_eq_nil_iff.mp same.symm
      exact ofChar_nonempty c alone
    · intro more first same
      refine unheld more ?_
      rw [List.map_cons, ← List.singleton_append, stars_append, stars_character c other, first,
        same]
      rfl

/-- A released mark stands for what it was held back as. -/
theorem acceptsAll_release (marks : List Mark) (text : List Char) (inLine : '\n' ∉ text)
    (accepted : AcceptsAll marks text) : AcceptsAll (releaseDoubleStars marks) text := by
  fun_induction releaseDoubleStars marks generalizing text with
  | case1 rest ih =>
    obtain ⟨left, right, rfl, -, others⟩ := (acceptsAll_append heldDoubleStar rest text).mp accepted
    simp only [List.mem_append, not_or] at inLine
    exact ⟨left, right, rfl, inLine.1, ih right inLine.2 others⟩
  | case2 mark rest _ ih =>
    obtain ⟨left, right, rfl, first, others⟩ := accepted
    simp only [List.mem_append, not_or] at inLine
    exact ⟨left, right, rfl, first, ih right inLine.2 others⟩
  | case3 => exact accepted

/-- A segment takes itself. -/
theorem acceptsAll_self (segment : List Char) (whole : '/' ∉ segment) (inLine : '\n' ∉ segment) :
    AcceptsAll (settle (segment.map ofChar)) segment := by
  refine acceptsAll_release _ _ inLine ?_
  clear inLine
  induction segment with
  | nil => rfl
  | cons c segment ih =>
    simp only [List.mem_cons, not_or] at whole
    rw [List.map_cons, ← List.singleton_append, stars_append]
    exact (acceptsAll_append _ _ _).mpr ⟨[c], segment, rfl,
      acceptsAll_character c c (Ne.symm whole.1) (.inl rfl), ih whole.2⟩

/-- Segments take themselves, one by one. -/
theorem acceptsAll_segments (spent : Bool) (segments : List (List Char))
    (whole : ∀ segment ∈ segments, '/' ∉ segment) (inLine : ∀ segment ∈ segments, '\n' ∉ segment) :
    List.Forall₂ AcceptsAll ((ofSegments spent segments).map settle) segments := by
  induction segments generalizing spent with
  | nil => exact .nil
  | cons segment segments ih =>
    have rest := ih (segment = ['*'] && !spent) (fun other member => whole other (by simp [member]))
      fun other member => inLine other (by simp [member])
    refine .cons ?_ rest
    split
    next star =>
      obtain ⟨rfl, -⟩ : segment = ['*'] ∧ spent = false := by simpa using star
      exact ⟨['*'], [], rfl, by simp [Accepts], rfl⟩
    next => exact acceptsAll_self segment (whole segment (by simp)) (inLine segment (by simp))

/-- The last segment takes nothing at all if it is hollow and not a whole name. -/
theorem acceptsAll_last_iff (spent : Bool) (last : List Char) :
    AcceptsAll (settle (if last = ['*'] && !spent then [.wholeName] else last.map ofChar)) [] ↔
      hollow last = true ∧ (last = ['*'] → spent = true) := by
  split
  next star =>
    obtain ⟨rfl, rfl⟩ : last = ['*'] ∧ spent = false := by simpa using star
    refine iff_of_false ?_ (by simp)
    rintro ⟨left, right, same, ⟨some, -⟩, -⟩
    exact some (List.append_eq_nil_iff.mp same.symm).1
  next other =>
    rw [acceptsAll_nil_iff]
    have unspent : last = ['*'] → spent = true := by simpa using other
    exact (and_iff_left unspent).symm

end Mark
end IgnoreRules.Pattern

namespace IgnoreRules.Rule

open Pattern

/-! ## Rules of several segments -/

section
variable (rooted directoryOnly : Bool) (marks : List Mark) (parts : List (List Mark))
  (divided : .char '/' :: marks = Mark.separate parts)
include divided

/-- A path that a rule hits has a component for each part of the rule, or it ends with a separator
that the last part leaves to the one in front of it. -/
theorem length_le_of_hits (components : List (List Char)) (trailing : Bool)
    (names : ∀ component ∈ components, IsName component)
    (hit : (expression rooted directoryOnly marks).hits (trail components ++ ending trailing) = true) :
    parts.length ≤ components.length ∨
      (directoryOnly = false ∧ ∃ front last, parts = front ++ [last] ∧ Mark.AcceptsAll last []) := by
  have separators (taken : List (List Char)) (named : ∀ component ∈ taken, IsName component) :
      (trail taken).count '/' = taken.length := by
    have clean : '/' ∉ taken.flatten := by
      simp only [List.mem_flatten, not_exists, not_and]
      exact fun component member => (named component member).whole
    rw [count_trail, List.count_eq_zero.mpr clean, Nat.add_zero]
  rw [Regex.hits_iff] at hit
  obtain ⟨front, found, behind, split, matched⟩ := hit
  rcases takes_or_swallows rooted directoryOnly marks components trailing names front found behind
    split matched with ⟨before, taken, after, takes, -⟩ | ⟨entry, -, before, rest, rfl, -, accepted⟩
  · -- Each part takes a separator of its own, and each component has one.
    have accepted := takes.accepted
    rw [divided, Mark.acceptsAll_separate] at accepted
    obtain ⟨texts, same, each⟩ := accepted
    have counted := count_trail texts
    rw [← same, separators taken fun component member => names component (by
      simp [takes.components, member])] at counted
    have length := each.length_eq
    simp only [takes.components, List.length_append]
    omega
  · -- There is one separator more than components, so the parts may be one more as well.
    rw [divided, Mark.acceptsAll_separate] at accepted
    obtain ⟨texts, same, each⟩ := accepted
    have counted := count_trail texts
    rw [← same, List.count_append, separators rest fun component member => names component (by
      simp [member])] at counted
    have length := each.length_eq
    by_cases enough : parts.length ≤ rest.length
    · exact .inl (by rw [List.length_append]; omega)
    · refine .inr ⟨entry, ?_⟩
      simp only [List.count_singleton_self] at counted
      have clean : '/' ∉ texts.flatten := List.count_eq_zero.mp (by omega)
      rcases List.eq_nil_or_concat' texts with rfl | ⟨texts, text, rfl⟩
      · simp at counted
      · have ended := List.forall₂_drop_append parts texts [text] each
        obtain ⟨last, _, nothing, none, split⟩ := List.forall₂_cons_right_iff.mp ended
        obtain rfl := List.forall₂_nil_right_iff.mp none
        -- The last text stands at the end of the path, where the last separator is.
        obtain rfl : text = [] := by
          rcases List.eq_nil_or_concat' text with rfl | ⟨text, c, rfl⟩
          · rfl
          · have ends : trail rest ++ ['/'] = (trail texts ++ '/' :: text) ++ [c] := by
              simpa using same
            obtain rfl : '/' = c := by simpa using List.append_inj_right' ends rfl
            exact absurd (by simp) clean
        exact ⟨parts.take texts.length, last, by rw [← split, List.take_append_drop], nothing⟩

/-- Parts take a path without an entry for the last one if that one takes nothing. -/
theorem hits_of_parts (front : List (List Mark)) (last : List Mark)
    (split : parts = front ++ [last]) (texts : List (List Char))
    (taken : List.Forall₂ Mark.AcceptsAll front texts) (nothing : Mark.AcceptsAll last []) :
    (expression rooted false marks).hits (trail texts ++ ending true) = true := by
  have accepted : Mark.AcceptsAll (.char '/' :: marks) (trail texts ++ ['/']) := by
    rw [divided, Mark.acceptsAll_separate, split]
    exact ⟨texts ++ [[]], by simp, List.rel_append taken (.cons nothing .nil)⟩
  obtain ⟨_, body, same, rfl, inner⟩ := accepted
  have hit := hits_of_accepts rooted marks [] body [] (fun _ => rfl) inner (.inl rfl)
  change (expression rooted false marks).hits (trail texts ++ ['/']) = true
  rw [same]
  simpa using hit

end

/-- The text between separators. -/
def segments (pattern : List Char) : List (List Char) :=
  (Outline.ofPattern pattern).body.splitOn '/'

/-- The last segment of a pattern may stand for nothing. The pattern is not for directories only,
and its text is blank, or it ends with a hollow segment other than a `*` that has a separator in
front of it for itself. -/
def Lax (pattern : List Char) : Prop :=
  (Outline.ofPattern pattern).directoryOnly = false ∧
    (Text.trim (Outline.ofPattern pattern).body = [] ∨
      '\n' ∉ (Outline.ofPattern pattern).body ∧ ∃ before last, segments pattern = before ++ [last] ∧
        hollow last = true ∧ (last = ['*'] → spends true before = true))

theorem Outline.body_infix (pattern : List Char) : (Outline.ofPattern pattern).body <:+: pattern :=
    by
  have behind : (if pattern.head? = some '/' then pattern.tail else pattern) <:+: pattern := by
    split
    · exact (List.tail_suffix pattern).isInfix
    · exact List.infix_rfl
  refine List.IsInfix.trans ?_ behind
  simp only [Outline.ofPattern]
  generalize (if pattern.head? = some '/' then pattern.tail else pattern) = text
  split
  · exact (List.dropLast_prefix text).isInfix
  · exact List.infix_rfl

section
variable (pattern : List Char) (brackets : '[' ∉ pattern) (escapes : '\\' ∉ pattern)
  (unpaired : ¬['*', '*'] <:+: pattern)
include brackets escapes unpaired

/-- The flags of a pattern without `**` are those of its separators. -/
theorem flags_of_unpaired [Text.CharacterNames] :
    (compile pattern).directoryOnly = (Outline.ofPattern pattern).directoryOnly := by
  have inside := Outline.body_infix pattern
  have plain := Division.ofText_of_not_mem _ fun member => brackets (inside.subset member)
  rw [(flags_of_plain pattern plain).2,
    (Mark.ofText_unpaired _ (fun member => escapes (inside.subset member)) fun paired =>
      unpaired (paired.trans inside)).2, Bool.or_false]

/-- The expression of a pattern without `**` has a part for each segment. -/
theorem regex_of_segments [Text.CharacterNames]
    (clean : Text.trim (Outline.ofPattern pattern).body = [] ∨
      '\n' ∉ (Outline.ofPattern pattern).body) :
    ∃ marks front last,
      (compile pattern).regex = .ok (expression (compile pattern).rooted
        (Outline.ofPattern pattern).directoryOnly marks) ∧
      .char '/' :: marks = Mark.separate (front ++ [last]) ∧
      List.Forall₂ Mark.AcceptsAll front (segments pattern).dropLast ∧
      (∀ segment ∈ (segments pattern).dropLast, '\n' ∉ segment) ∧
      (Mark.AcceptsAll last [] ∧ (Outline.ofPattern pattern).directoryOnly = false ↔
        Lax pattern) := by
  have inside := Outline.body_infix pattern
  have plain : '[' ∉ (Outline.ofPattern pattern).body := fun member =>
    brackets (inside.subset member)
  by_cases blank : Text.trim (Outline.ofPattern pattern).body = []
  · have single : segments pattern = [(Outline.ofPattern pattern).body] := by
      refine List.splitOn_eq_singleton fun member => ?_
      exact Text.trim_nonempty _ ⟨'/', member, by decide⟩ blank
    refine ⟨[], [], [], ?_, rfl, by simp [single], by simp [single], ?_⟩
    · rw [regex_of_blank pattern plain blank, flags_of_unpaired pattern brackets escapes unpaired]
    · simp [Lax, blank, Mark.AcceptsAll]
  · have feed := clean.resolve_left blank
    obtain ⟨before, last, split⟩ : ∃ before last, segments pattern = before ++ [last] :=
      ⟨_, _, (List.dropLast_concat_getLast (List.splitOn_ne_nil '/' _)).symm⟩
    have inner : ∀ segment ∈ before, segment ∈ (Outline.ofPattern pattern).body.splitOn '/' := by
      intro segment member
      rw [← segments, split]
      exact List.mem_append_left _ member
    have whole : ∀ segment ∈ before, '/' ∉ segment := fun segment member =>
      whole_of_mem_splitOn _ segment (inner segment member)
    have feeds : ∀ segment ∈ before, '\n' ∉ segment := fun segment member present =>
      feed (mem_of_mem_splitOn _ segment '\n' (inner segment member) present)
    have marks := Mark.ofText_segments (Outline.ofPattern pattern).body
      (fun member => escapes (inside.subset member)) (fun paired => unpaired (paired.trans inside)) feed
    rw [← segments, split, Mark.ofSegments_append, List.map_append] at marks
    refine ⟨_, _, _, ?_, marks, ?_, ?_, ?_⟩
    · rw [regex_of_plain pattern (Division.ofText_of_not_mem _ plain) blank,
        flags_of_unpaired pattern brackets escapes unpaired]
    · rw [split, List.dropLast_concat]
      exact Mark.acceptsAll_segments true before whole feeds
    · rwa [split, List.dropLast_concat]
    · rw [Mark.acceptsAll_last_iff, Lax]
      simp only [blank, feed, split, false_or, not_false_eq_true, true_and]
      constructor
      · rintro ⟨nothing, entry⟩
        exact ⟨entry, before, last, rfl, nothing⟩
      · rintro ⟨entry, front, other, same, nothing⟩
        obtain ⟨rfl, rfl⟩ : before = front ∧ last = other := by simpa using List.append_inj' same rfl
        exact ⟨nothing, entry⟩

/-- A rule without `**` hits no path with fewer components than it has segments exactly if its last
segment stands for something. -/
theorem segments_need_components [Text.CharacterNames]
    (nonempty : ∀ segment ∈ segments pattern, segment ≠ []) :
    ∃ regex, (compile pattern).regex = .ok regex ∧
      ((∀ (components : List (List Char)) (trailing : Bool),
          (∀ component ∈ components, IsName component ∧ '\\' ∉ component) →
          regex.hits (trail components ++ ending trailing) = true →
          (segments pattern).length ≤ components.length) ↔ ¬Lax pattern) := by
  have inside := Outline.body_infix pattern
  by_cases clean : Text.trim (Outline.ofPattern pattern).body = [] ∨
      '\n' ∉ (Outline.ofPattern pattern).body
  · obtain ⟨marks, front, last, read, divided, taken, feeds, lax⟩ :=
      regex_of_segments pattern brackets escapes unpaired clean
    have length : (segments pattern).length = front.length + 1 := by
      have several : (segments pattern).length ≠ 0 := fun none =>
        List.splitOn_ne_nil '/' _ (List.length_eq_zero_iff.mp none)
      have others := taken.length_eq
      rw [List.length_dropLast] at others
      omega
    refine ⟨_, read, ?_⟩
    constructor
    · intro always loose
      obtain ⟨nothing, entry⟩ := lax.mpr loose
      have names : ∀ segment ∈ (segments pattern).dropLast, IsName segment ∧ '\\' ∉ segment := by
        intro segment member
        have present := (List.dropLast_sublist _).mem member
        refine ⟨⟨nonempty segment present, whole_of_mem_splitOn _ segment present,
          feeds segment member⟩, fun escape => ?_⟩
        exact escapes (inside.subset (mem_of_mem_splitOn _ segment '\\' present escape))
      rw [entry] at always
      have enough := always _ true names (hits_of_parts (compile pattern).rooted marks _ divided front
        last rfl _ taken nothing)
      rw [← taken.length_eq] at enough
      omega
    · intro tight components trailing names hit
      rcases length_le_of_hits _ _ marks _ divided components trailing
        (fun component member => (names component member).1) hit with
        enough | ⟨entry, others, final, same, nothing⟩
      · simpa [length] using enough
      · obtain ⟨rfl, rfl⟩ : front = others ∧ last = final := by simpa using List.append_inj' same rfl
        exact absurd (lax.mp ⟨nothing, entry⟩) tight
  · -- A line feed that is asked for is in no name.
    simp only [not_or, not_not] at clean
    obtain ⟨visible, feed⟩ := clean
    have plain := Division.ofText_of_not_mem (Outline.ofPattern pattern).body fun member =>
      brackets (inside.subset member)
    refine ⟨_, regex_of_plain pattern plain visible, iff_of_true ?_ ?_⟩
    · intro components trailing names hit
      have asked := Mark.lineFeed_mem_ofText (Outline.ofPattern pattern).body
        (fun member => escapes (inside.subset member)) feed
      exact absurd hit (not_hits_of_char _ _ _ '\n' asked _ (inLine_path components trailing
        fun component member => (names component member).1))
    · rintro ⟨-, blank | ⟨inLine, -⟩⟩
      · exact visible blank
      · exact inLine feed

end

/-- The rule `a/*` hits nothing but what lies below an entry. -/
theorem segments_need_components_below :
    '[' ∉ "a/*".toList ∧ '\\' ∉ "a/*".toList ∧ ¬['*', '*'] <:+: "a/*".toList ∧
    (∀ segment ∈ segments "a/*".toList, segment ≠ []) ∧
    ∃ regex, (compile "a/*".toList).regex = .ok regex ∧
      ∀ (components : List (List Char)) (trailing : Bool),
        (∀ component ∈ components, IsName component ∧ '\\' ∉ component) →
        regex.hits (trail components ++ ending trailing) = true → 2 ≤ components.length := by
  have brackets : '[' ∉ "a/*".toList := by decide
  have escapes : '\\' ∉ "a/*".toList := by decide
  have unpaired : ¬['*', '*'] <:+: "a/*".toList := by decide
  have nonempty : ∀ segment ∈ segments "a/*".toList, segment ≠ [] := by decide
  obtain ⟨regex, read, needs⟩ :=
    segments_need_components "a/*".toList brackets escapes unpaired nonempty
  refine ⟨brackets, escapes, unpaired, nonempty, regex, read, needs.mpr ?_⟩
  rintro ⟨-, blank | ⟨-, before, last, split, -, spent⟩⟩
  · revert blank
    decide
  · -- The separator in front of the `*` is there for it.
    have known : segments "a/*".toList = [['a']] ++ [['*']] := by decide
    obtain ⟨rfl, rfl⟩ : [['a']] = before ∧ ['*'] = last := by
      simpa using List.append_inj' (known.symm.trans split) rfl
    exact absurd (spent rfl) (by decide)

/-- A rule may hit a path with fewer components than it has segments. The rule `a/*/*` hits `/a/b/`,
where nothing is left for the last `*`. -/
theorem segments_without_components :
    ¬∀ pattern : List Char, '[' ∉ pattern → ']' ∉ pattern → '\\' ∉ pattern →
      ¬['*', '*'] <:+: pattern → (∀ segment ∈ segments pattern, segment ≠ []) →
      ∀ (components : List (List Char)) (trailing : Bool),
        (∀ component ∈ components, IsName component ∧ '\\' ∉ component) →
        ∀ regex, (compile pattern).regex = .ok regex →
          regex.hits (trail components ++ ending trailing) = true →
          (segments pattern).length ≤ components.length := by
  intro always
  obtain ⟨found, read, hit⟩ : ∃ found, (compile "a/*/*".toList).regex = .ok found ∧
      found.hits "/a/b/".toList = true := ok_of_view (by decide +kernel)
  have names : ∀ component ∈ [['a'], ['b']], IsName component ∧ '\\' ∉ component := by
    intro component member
    simp only [List.mem_cons, List.not_mem_nil, or_false] at member
    rcases member with rfl | rfl <;> exact ⟨⟨by decide, by decide, by decide⟩, by decide⟩
  have enough := always "a/*/*".toList (by decide) (by decide) (by decide) (by decide) (by decide)
    [['a'], ['b']] true names found read hit
  exact absurd enough (by decide)

end IgnoreRules.Rule
