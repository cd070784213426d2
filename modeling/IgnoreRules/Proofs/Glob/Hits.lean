import IgnoreRules.Proofs.Glob.Marks
import IgnoreRules.Proofs.Pattern.Expression
import IgnoreRules.Text.AsciiNames

/-!
# Globs hit what they say

The marks of a glob accept the components that its segments stand for, each behind a separator. A
rule adds the separator in front and what may follow, so its expression is found in a path exactly
where the glob hits it.
-/

namespace IgnoreRules.Pattern.Mark

/-! ## Words -/

/-- The marks of a word accept the names that it stands for. -/
theorem acceptsAll_items (items : List Item) (literals : ∀ c, .literal c ∈ items → IsLiteral c)
    (name : List Char) :
    AcceptsAll (items.map ofItem) name ↔ '/' ∉ name ∧ Item.Accept items name := by
  induction items generalizing name with
  | nil =>
    simp only [List.map_nil, AcceptsAll, Item.Accept]
    exact ⟨fun same => ⟨by simp [same], same⟩, fun both => both.2⟩
  | cons item items ih =>
    have rest := ih fun c member => literals c (by simp [member])
    simp only [List.map_cons, AcceptsAll, rest]
    cases item with
    | literal c =>
      have literal := literals c (by simp)
      have other : '/' ≠ c := by
        rintro rfl
        simp [IsLiteral] at literal
      have question : c ≠ '?' := by
        rintro rfl
        simp [IsLiteral] at literal
      simp only [ofItem, accepts_ofChar c question, Item.Accept]
      constructor
      · rintro ⟨_, right, rfl, rfl, whole, accepted⟩
        exact ⟨by simp [other, whole], right, rfl, accepted⟩
      · rintro ⟨whole, right, rfl, accepted⟩
        exact ⟨[c], right, rfl, rfl, by simpa [other] using whole, accepted⟩
    | anyChar =>
      simp only [ofItem, Accepts, Item.Accept]
      constructor
      · rintro ⟨_, right, rfl, ⟨c, rfl, other⟩, whole, accepted⟩
        exact ⟨by simp [Ne.symm other, whole], c, right, rfl, accepted⟩
      · rintro ⟨whole, c, right, rfl, accepted⟩
        simp only [List.mem_cons, not_or] at whole
        exact ⟨[c], right, rfl, ⟨c, rfl, Ne.symm whole.1⟩, whole.2, accepted⟩
    | anyRun =>
      simp only [ofItem, Accepts, Item.Accept]
      constructor
      · rintro ⟨run, right, rfl, clean, whole, accepted⟩
        exact ⟨by simp [clean, whole], run, right, rfl, accepted⟩
      · rintro ⟨whole, run, right, rfl, accepted⟩
        simp only [List.mem_append, not_or] at whole
        exact ⟨run, right, rfl, whole.1, whole.2, accepted⟩

private theorem acceptsAll_singleton (mark : Mark) (text : List Char) :
    AcceptsAll [mark] text ↔ mark.Accepts text := by
  constructor
  · rintro ⟨left, _, rfl, accepted, rfl⟩
    rwa [List.append_nil]
  · exact fun accepted => ⟨text, [], by simp, accepted, rfl⟩

theorem Fills.whole {items : List Item} {marks : List Mark} (filled : Fills items marks)
    (word : IsWord items) (text : List Char) (accepted : AcceptsAll marks text) : '/' ∉ text := by
  rcases filled with rfl | ⟨_, rfl⟩
  · exact ((acceptsAll_items items word.literals text).mp accepted).1
  · exact ((acceptsAll_singleton _ _).mp accepted).2

/-- Whatever marks a word ended up as, they accept the same components. -/
theorem Fills.accepts_iff {items : List Item} {marks : List Mark} (filled : Fills items marks)
    (word : IsWord items) (name : List Char) (nonempty : name ≠ []) (whole : '/' ∉ name) :
    AcceptsAll marks name ↔ Item.Accept items name := by
  rcases filled with rfl | ⟨rfl, rfl⟩
  · rw [acceptsAll_items items word.literals]
    exact and_iff_right whole
  · rw [acceptsAll_singleton]
    exact ⟨fun _ => ⟨name, [], by simp, rfl⟩, fun _ => ⟨nonempty, whole⟩⟩

/-! ## Segments -/

/-- What the marks of segments accept is nothing or starts with a separator. -/
theorem Renders.boundary {segments : List Segment} {marks : List Mark}
    (rendered : Renders segments marks) (text : List Char) (accepted : AcceptsAll marks text) :
    AtBoundary text := by
  cases rendered with
  | nil =>
    obtain rfl := accepted
    simp [AtBoundary]
  | trailing =>
    rcases (acceptsAll_singleton _ _).mp accepted with rfl | ⟨path, rfl, _⟩ <;> simp [AtBoundary]
  | inner =>
    obtain ⟨_, right, rfl, rfl | ⟨path, rfl, _⟩, _⟩ := accepted <;> simp [AtBoundary]
  | next =>
    obtain ⟨_, right, rfl, rfl, _⟩ := accepted
    simp [AtBoundary]

/-- A word behind a separator takes the first component and leaves the rest to what follows. -/
private theorem accepts_word {items : List Item} {marks : List Mark} (word : IsWord items)
    (filled : Fills items marks) {segments : List Segment} {more : List Mark}
    (rest : Renders segments more) (components : List (List Char))
    (names : ∀ component ∈ components, IsName component) :
    (∃ text, trail components = '/' :: text ∧ AcceptsAll (marks ++ more) text) ↔
      ∃ name others, components = name :: others ∧ Item.Accept items name ∧
        AcceptsAll more (trail others) := by
  constructor
  · rintro ⟨text, split, accepted⟩
    obtain ⟨left, right, rfl, first, last⟩ := (acceptsAll_append _ _ _).mp accepted
    cases components with
    | nil => cases split
    | cons name others =>
      have named := names name (by simp)
      have ends : AtBoundary (trail others) := by
        have boundary := atBoundary_trail others false
        rwa [ending, if_neg (by simp), List.append_nil] at boundary
      obtain ⟨rfl, rfl⟩ := component_unique name left (trail others) right named.whole
        (filled.whole word left first) ends (rest.boundary right last) (List.cons.inj split).2
      have accepts := (filled.accepts_iff word name named.nonempty named.whole).mp first
      exact ⟨name, others, rfl, accepts, last⟩
  · rintro ⟨name, others, rfl, first, last⟩
    have named := names name (by simp)
    have accepts := (filled.accepts_iff word name named.nonempty named.whole).mpr first
    exact ⟨name ++ trail others, rfl, (acceptsAll_append _ _ _).mpr
      ⟨name, trail others, rfl, accepts, last⟩⟩

/-- Some components are a path between two separators. -/
private theorem path_of_trail (components : List (List Char)) (nonempty : components ≠ [])
    (names : ∀ component ∈ components, IsName component) :
    ∃ path, trail components = '/' :: path ∧ path ≠ [] ∧ '\n' ∉ path := by
  have inLine := inLine_trail components names
  cases components with
  | nil => exact absurd rfl nonempty
  | cons component components =>
    have named := names component (by simp)
    refine ⟨component ++ trail components, rfl, by simp [named.nonempty], ?_⟩
    rw [trail_cons, List.mem_cons, not_or] at inLine
    exact inLine.2

/-- The marks of segments accept the components that the segments stand for. -/
theorem Renders.accepts_iff {segments : List Segment} {marks : List Mark}
    (rendered : Renders segments marks) (components : List (List Char))
    (names : ∀ component ∈ components, IsName component) :
    AcceptsAll marks (trail components) ↔ Segment.Accept segments components := by
  -- Each mark of a separator or a `**` is followed by a word, which ends where a component does, so
  -- what is left is a list of components again.
  induction rendered generalizing components with
  | nil => exact trail_eq_nil components
  | trailing =>
    refine ⟨fun _ => ⟨components, [], by simp, rfl⟩, fun _ => (acceptsAll_singleton _ _).mpr ?_⟩
    by_cases empty : components = []
    · exact .inl (by simp [empty])
    · exact .inr (path_of_trail components empty names)
  | @next items marks segments more word filled rest ih =>
    have first : AcceptsAll (.char '/' :: (marks ++ more)) (trail components) ↔
        ∃ text, trail components = '/' :: text ∧ AcceptsAll (marks ++ more) text := by
      constructor
      · rintro ⟨_, text, split, rfl, accepted⟩
        exact ⟨text, split, accepted⟩
      · rintro ⟨text, split, accepted⟩
        exact ⟨['/'], text, split, rfl, accepted⟩
    rw [first, accepts_word word filled rest components names, Segment.Accept]
    constructor
    · rintro ⟨name, others, rfl, accepted, last⟩
      exact ⟨name, others, rfl, accepted,
        (ih others fun other member => names other (by simp [member])).mp last⟩
    · rintro ⟨name, others, rfl, accepted, last⟩
      exact ⟨name, others, rfl, accepted,
        (ih others fun other member => names other (by simp [member])).mpr last⟩
  | @inner items marks segments more word filled rest ih =>
    simp only [Segment.Accept]
    constructor
    · rintro ⟨left, text, split, accepted, others⟩
      -- What `**` skips ends where the separator of the word starts.
      have cut : ∃ skipped behind, components = skipped ++ behind ∧ trail behind = '/' :: text := by
        rcases accepted with rfl | ⟨path, rfl, _⟩
        · exact ⟨[], components, rfl, split⟩
        · obtain ⟨skipped, behind, same, _, last⟩ := trail_cut components false names ('/' :: path)
            text (by simpa [ending] using split)
          exact ⟨skipped, behind, same, by simpa [ending] using last.symm⟩
      obtain ⟨skipped, behind, rfl, start⟩ := cut
      have named : ∀ component ∈ behind, IsName component := fun component member =>
        names component (by simp [member])
      obtain ⟨name, remaining, rfl, first, last⟩ :=
        (accepts_word word filled rest behind named).mp ⟨text, start, others⟩
      exact ⟨skipped, _, rfl, name, remaining, rfl, first,
        (ih remaining fun other member => named other (by simp [member])).mp last⟩
    · rintro ⟨skipped, _, rfl, name, remaining, rfl, first, last⟩
      have named : ∀ component ∈ name :: remaining, IsName component := fun component member =>
        names component (List.mem_append_right _ member)
      obtain ⟨text, start, others⟩ := (accepts_word word filled rest _ named).mpr
        ⟨name, remaining, rfl, first,
          (ih remaining fun other member => named other (by simp [member])).mpr last⟩
      -- The mark has a branch of its own for nothing skipped, with one separator instead of two.
      by_cases empty : skipped = []
      · subst empty
        exact ⟨['/'], text, start, .inl rfl, others⟩
      · obtain ⟨path, same, nonempty⟩ := path_of_trail skipped empty fun component member =>
          names component (by simp [member])
        exact ⟨'/' :: (path ++ ['/']), text, by rw [trail_append, same, start]; simp,
          .inr ⟨path, rfl, nonempty⟩, others⟩

/-- A word at the end of the segments that is more than `*` ends with a character of a name, and so
does what stands before it. -/
private theorem closed_word {items : List Item} {marks : List Mark} (word : IsWord items)
    (filled : Fills items marks) {segments : List Segment} {more : List Mark}
    (rest : Renders segments more) (several : segments = [] → items ≠ [.anyRun])
    (others : segments ≠ [] → ∀ text, AcceptsAll more text →
      ∃ front last, text = front ++ [last] ∧ last ≠ '/')
    (text : List Char) (accepted : AcceptsAll (marks ++ more) text) :
    ∃ front last, text = front ++ [last] ∧ last ≠ '/' := by
  obtain ⟨left, right, rfl, first, behind⟩ := (acceptsAll_append _ _ _).mp accepted
  by_cases final : segments = []
  · subst final
    cases rest
    obtain rfl := behind
    have nonempty : left ≠ [] := by
      rcases filled with rfl | ⟨same, _⟩
      · exact word.name_nonempty (several rfl) left
          ((acceptsAll_items items word.literals left).mp first).2
      · exact absurd same (several rfl)
    have whole := filled.whole word left first
    refine ⟨left.dropLast, left.getLast nonempty, ?_, ?_⟩
    · simp [List.dropLast_concat_getLast]
    · exact fun same => whole (same ▸ List.getLast_mem nonempty)
  · obtain ⟨front, last, rfl, other⟩ := others final right behind
    exact ⟨left ++ front, last, by simp, other⟩

/-- Segments with such a word at their end do not take the separator at the end of a path. -/
theorem Renders.closed {segments : List Segment} {marks : List Mark}
    (rendered : Renders segments marks) (nonempty : segments ≠ [])
    (open_ : segments.getLast? ≠ some .doubleStar)
    (lone : segments.getLast? ≠ some (.word [.anyRun])) (text : List Char)
    (accepted : AcceptsAll marks text) : ∃ front last, text = front ++ [last] ∧ last ≠ '/' := by
  induction rendered generalizing text with
  | nil => exact absurd rfl nonempty
  | trailing => exact absurd rfl open_
  | @inner items marks segments more word filled rest ih =>
    obtain ⟨left, right, rfl, _, behind⟩ := accepted
    have several : segments = [] → items ≠ [.anyRun] := by
      rintro rfl rfl
      exact lone rfl
    have others (further : segments ≠ []) := ih further
      (by rwa [List.getLast?_cons_cons, List.getLast?_cons_of_ne_nil further] at open_)
      (by rwa [List.getLast?_cons_cons, List.getLast?_cons_of_ne_nil further] at lone)
    obtain ⟨front, last, rfl, other⟩ := closed_word word filled rest several others right behind
    exact ⟨left ++ front, last, by simp, other⟩
  | @next items marks segments more word filled rest ih =>
    obtain ⟨left, right, rfl, _, behind⟩ := accepted
    have several : segments = [] → items ≠ [.anyRun] := by
      rintro rfl rfl
      exact lone rfl
    have others (further : segments ≠ []) := ih further
      (by rwa [List.getLast?_cons_of_ne_nil further] at open_)
      (by rwa [List.getLast?_cons_of_ne_nil further] at lone)
    obtain ⟨front, last, rfl, other⟩ := closed_word word filled rest several others right behind
    exact ⟨left ++ front, last, by simp, other⟩

/-- The marks of a glob, with the separator that its rule starts with, are those of its segments. -/
theorem exists_renders (segments : List Segment) (proper : Segment.Proper segments)
    (nonempty : segments ≠ []) (more : segments ≠ [.doubleStar]) :
    ∃ marks, Renders segments marks ∧ ∀ text,
      AcceptsAll (.char '/' :: ofText (Segment.join segments)) text ↔ AcceptsAll marks text := by
  match segments, proper with
  | [], _ => exact absurd rfl nonempty
  | .word items :: rest, proper =>
    refine ⟨_, .next (proper.words items (by simp)) (.inl rfl) (renders_below rest proper.tail), ?_⟩
    rw [(ofText_word items rest proper).1]
    exact fun text => Iff.rfl
  | [.doubleStar], _ => exact absurd rfl more
  | .doubleStar :: next :: rest, proper =>
    obtain ⟨items, rfl, word⟩ := proper.next
    refine ⟨_, .inner word (.inl rfl) (renders_below rest proper.tail.tail), fun text => ?_⟩
    rw [(ofText_leading items rest proper).1]
    -- A separator and then nothing or a path up to a separator: that is the mark of an inner `**`.
    constructor
    · rintro ⟨_, _, rfl, rfl, left, right, rfl, rfl | ⟨path, rfl, inside⟩, others⟩
      · exact ⟨['/'], right, rfl, .inl rfl, others⟩
      · exact ⟨'/' :: (path ++ ['/']), right, by simp, .inr ⟨path, rfl, inside⟩, others⟩
    · rintro ⟨left, right, rfl, rfl | ⟨path, rfl, inside⟩, others⟩
      · exact ⟨['/'], right, rfl, rfl, [], right, rfl, .inl rfl, others⟩
      · exact ⟨['/'], path ++ ['/'] ++ right, by simp, rfl, path ++ ['/'], right, rfl,
          .inr ⟨path, rfl, inside⟩, others⟩

/-- The marks of a glob accept the components that its segments stand for, but a glob that is
nothing but `**` leaves no room for no component. -/
theorem accepts_join_iff (segments : List Segment) (proper : Segment.Proper segments)
    (nonempty : segments ≠ []) (components : List (List Char))
    (names : ∀ component ∈ components, IsName component) :
    AcceptsAll (.char '/' :: ofText (Segment.join segments)) (trail components) ↔
      Segment.Accept segments components ∧ (segments = [.doubleStar] → components ≠ []) := by
  by_cases more : segments = [.doubleStar]
  · subst more
    -- Any text is accepted behind the separator, so only the separator has to be there.
    have marks : ofText (Segment.join [.doubleStar]) = [.anyText] := rfl
    rw [marks]
    constructor
    · rintro ⟨_, right, split, rfl, _⟩
      refine ⟨⟨components, [], by simp, rfl⟩, fun _ empty => ?_⟩
      simp [empty] at split
    · rintro ⟨_, nonempty⟩
      obtain ⟨path, same, _, inLine⟩ := path_of_trail components (nonempty rfl) names
      exact ⟨['/'], path, same, rfl, (acceptsAll_singleton _ _).mpr inLine⟩
  · obtain ⟨marks, rendered, same⟩ := exists_renders segments proper nonempty more
    rw [same, rendered.accepts_iff components names]
    exact (and_iff_left fun lone => absurd lone more).symm

end IgnoreRules.Pattern.Mark

namespace IgnoreRules.Pattern.Glob

open Regex (sequence)
open Rule (Outline compile opening closing)

/-! ## The rule of a glob -/

private theorem names (glob : Glob) :
    ∀ component ∈ glob.segments.map Segment.text, IsName component := by
  intro component member
  obtain ⟨segment, listed, rfl⟩ := List.mem_map.mp member
  exact glob.proper.name segment listed

/-- The text of the segments neither starts nor ends with a separator. -/
private theorem join_ends (glob : Glob) :
    (∃ c rest, Segment.join glob.segments = c :: rest ∧ c ≠ '/') ∧
      ∃ front c, Segment.join glob.segments = front ++ [c] ∧ c ≠ '/' := by
  have joined := Segment.trail_text glob.segments glob.nonempty
  constructor
  · obtain ⟨segment, segments, same⟩ := List.exists_cons_of_ne_nil glob.nonempty
    have name := glob.proper.name segment (by simp [same])
    obtain ⟨c, text, first⟩ := List.exists_cons_of_ne_nil name.nonempty
    rw [same, List.map_cons, trail_cons, first] at joined
    refine ⟨c, _, same ▸ (List.cons.inj joined).2.symm, ?_⟩
    rintro rfl
    exact name.whole (by simp [first])
  · obtain ⟨front, last, ended, other⟩ :=
      trail_last _ (by simpa using glob.nonempty) (names glob)
    rw [joined] at ended
    cases front with
    | nil =>
      obtain ⟨rfl, _⟩ := List.cons.inj ended
      exact absurd rfl other
    | cons c front => exact ⟨front, last, (List.cons.inj ended).2, other⟩

/-- The separators around a glob are told from those within. -/
theorem outline (glob : Glob) :
    Outline.ofPattern glob.text = ⟨Segment.join glob.segments, glob.rooted, glob.directory⟩ := by
  obtain ⟨⟨c, rest, first, start⟩, front, last, ended, stop⟩ := join_ends glob
  have behind (text : List Char) (same : text = front ++ [last]) (directory : Bool) :
      (if (text ++ ending directory).getLast? = some '/' then (text ++ ending directory).dropLast
        else text ++ ending directory) = text ∧
      decide ((text ++ ending directory).getLast? = some '/') = directory := by
    subst same
    cases directory <;> simp [ending, stop]
  -- The text ends with a separator if and only if one was put behind the segments.
  have parts := behind _ ended glob.directory
  unfold Outline.ofPattern
  cases rooted : glob.rooted with
  | false =>
    have head : glob.text = Segment.join glob.segments ++ ending glob.directory := by
      rw [text, rooted]
      rfl
    have other : (Segment.join glob.segments ++ ending glob.directory).head? ≠ some '/' := by
      rw [first]
      simpa using start
    simp only [head, other, decide_false, if_false, parts]
  | true =>
    have head : glob.text = '/' :: (Segment.join glob.segments ++ ending glob.directory) := by
      rw [text, rooted]
      rfl
    simp only [head, List.head?_cons, decide_true, if_true, List.tail_cons, parts]

theorem hasSeparator_iff (glob : Glob) :
    '/' ∈ Segment.join glob.segments ↔ 1 < glob.segments.length := by
  have proper := glob.proper
  cases same : glob.segments with
  | nil => exact absurd same glob.nonempty
  | cons segment segments =>
    rw [same] at proper
    cases segments with
    | nil => simpa [Segment.join] using (proper.name segment (by simp)).whole
    | cons next segments => simp [Segment.join]

theorem forcesDirectory_iff (glob : Glob) :
    (Fragment.ofText (Segment.join glob.segments)).forcesDirectory = true ↔
      1 < glob.segments.length ∧ glob.segments.getLast? = some .doubleStar := by
  have proper := glob.proper
  match same : glob.segments with
  | [] => exact absurd same glob.nonempty
  | .word items :: rest =>
    rw [same] at proper
    rw [(Mark.ofText_word items rest proper).2]
    cases rest <;> simp
  | [.doubleStar] =>
    have alone : (Fragment.ofText (Segment.join [.doubleStar])).forcesDirectory = false := rfl
    simp [alone]
  | .doubleStar :: next :: rest =>
    rw [same] at proper
    obtain ⟨items, rfl, _⟩ := proper.next
    rw [(Mark.ofText_leading items rest proper).2]
    cases rest <;> simp

/-- A glob has no bracket expression and something to see. -/
theorem body_plain (glob : Glob) :
    Division.ofText (Outline.ofPattern glob.text).body =
        .plain (Outline.ofPattern glob.text).body ∧
      Text.trim (Outline.ofPattern glob.text).body ≠ [] := by
  rw [glob.outline]
  exact ⟨Division.ofText_of_not_mem _ (glob.proper.plain glob.nonempty).1,
    Text.trim_nonempty _ glob.visible⟩

theorem compile_flags [Text.CharacterNames] (glob : Glob) :
    ((compile glob.text).rooted = true ↔ glob.Anchored) ∧
      ((compile glob.text).directoryOnly = true ↔ glob.ForDirectories) := by
  obtain ⟨rooted, directoryOnly⟩ := Rule.flags_of_plain glob.text glob.body_plain.1
  rw [rooted, directoryOnly, glob.outline]
  simp only [Bool.or_eq_true, List.contains_iff_mem]
  rw [forcesDirectory_iff, hasSeparator_iff]
  exact ⟨Iff.rfl, Iff.rfl⟩

/-- The expression of a glob is that of the marks of its segments. -/
theorem regex_eq [Text.CharacterNames] (glob : Glob) :
    (compile glob.text).regex = .ok (Rule.expression (compile glob.text).rooted
      (compile glob.text).directoryOnly (Mark.ofText (Segment.join glob.segments))) := by
  have read := Rule.regex_of_plain glob.text glob.body_plain.1 glob.body_plain.2
  rw [glob.outline] at read
  exact read

/-! ## Where the expression of a glob is found -/

theorem exists_regex [Text.CharacterNames] (glob : Glob) :
    ∃ regex, (compile glob.text).regex = .ok regex :=
  ⟨_, glob.regex_eq⟩

/-- Components that the marks of a glob take are those that its segments stand for. -/
theorem takes_iff [Text.CharacterNames] (glob : Glob) (path : EntryPath)
    (before taken after : List (List Char)) :
    Rule.Takes (compile glob.text).rooted (compile glob.text).directoryOnly
        (Mark.ofText (Segment.join glob.segments)) path.components path.trailing before taken
        after ↔
      glob.HitsAt path before taken after := by
  obtain ⟨rooted, directoryOnly⟩ := glob.compile_flags
  have accepts (components : path.components = before ++ taken ++ after) :=
    Mark.accepts_join_iff glob.segments glob.proper glob.nonempty taken fun component member =>
      path.names component (by simp [components, member])
  constructor
  · intro takes
    have standing := (accepts takes.components).mp takes.accepted
    exact ⟨takes.components, fun anchored => takes.rooted (rooted.mpr anchored), standing.1,
      standing.2, fun directories => takes.inside (directoryOnly.mpr directories)⟩
  · intro hit
    exact ⟨hit.components, fun fixed => hit.anchored (rooted.mp fixed),
      (accepts hit.components).mpr ⟨hit.accepted, hit.nonempty⟩,
      fun directories => hit.inside (directoryOnly.mp directories)⟩

section
variable [Text.CharacterNames] (glob : Glob) (regex : Regex)
  (read : (compile glob.text).regex = .ok regex) (path : EntryPath)
include read

/-- Where a glob hits a path, there is a match of its expression. -/
theorem matches_of_hitsAt (before taken after : List (List Char))
    (hit : glob.HitsAt path before taken after) :
    ∃ behind, path.text = trail before ++ (trail taken ++ path.stop after) ++ behind ∧
      regex.Matches (trail before).length (trail taken ++ path.stop after) behind := by
  obtain rfl := Except.ok.inj (glob.regex_eq.symm.trans read)
  exact Rule.matches_of_takes _ _ _ path.components path.trailing before taken after
    ((glob.takes_iff path before taken after).mpr hit)

/-- Every match of the expression of a glob is a place where the glob hits the path. Only where the
last separator of the path lies within the match is there another way. -/
theorem hitsAt_or_swallows (front found behind : List Char)
    (split : path.text = front ++ found ++ behind)
    (matched : regex.Matches front.length found behind) :
    (∃ before taken after, glob.HitsAt path before taken after ∧ front = trail before ∧
      found = trail taken ++ path.stop after) ∨
    (¬glob.ForDirectories ∧ path.trailing = true ∧ ∃ components,
      Mark.AcceptsAll (.char '/' :: Mark.ofText (Segment.join glob.segments))
        (trail components ++ ['/'])) := by
  obtain rfl := Except.ok.inj (glob.regex_eq.symm.trans read)
  rcases Rule.takes_or_swallows _ _ _ path.components path.trailing path.names front found behind
    split matched with ⟨before, taken, after, takes, same⟩ | ⟨entry, trailing, _, rest, _, _, accepted⟩
  · exact .inl ⟨before, taken, after, (glob.takes_iff path before taken after).mp takes, same⟩
  · refine .inr ⟨?_, trailing, rest, accepted⟩
    rw [← glob.compile_flags.2, entry]
    exact Bool.false_ne_true

end

/-- A glob with a word at its end is found where it hits the path and nowhere else. A segment `*` at
the end is no such word when the path ends with a separator. -/
theorem hitsAt_of_matches [Text.CharacterNames] (glob : Glob) (regex : Regex)
    (read : (compile glob.text).regex = .ok regex) (more : glob.segments ≠ [.doubleStar])
    (path : EntryPath)
    (lone : path.trailing = true → glob.segments.getLast? ≠ some (.word [.anyRun]))
    (front found behind : List Char) (split : path.text = front ++ found ++ behind)
    (matched : regex.Matches front.length found behind) :
    ∃ before taken after, glob.HitsAt path before taken after ∧ front = trail before ∧
      found = trail taken ++ path.stop after := by
  rcases hitsAt_or_swallows glob regex read path front found behind split matched with
    hit | ⟨entry, trailing, components, accepted⟩
  · exact hit
  · obtain ⟨marks, rendered, same⟩ :=
      Mark.exists_renders glob.segments glob.proper glob.nonempty more
    -- A final `**` would make the glob one for directories.
    have open_ : glob.segments.getLast? ≠ some .doubleStar := by
      intro last
      refine entry (.inr ⟨?_, last⟩)
      match listed : glob.segments with
      | [] => exact absurd listed glob.nonempty
      | [segment] =>
        rw [listed] at last more
        simp only [List.getLast?_singleton, Option.some.injEq] at last
        exact absurd (by rw [last]) more
      | _ :: _ :: _ => simp
    obtain ⟨start, last, ended, other⟩ := rendered.closed glob.nonempty open_ (lone trailing) _
      ((same _).mp accepted)
    exact absurd (List.append_inj_right' ended rfl) (by simpa using Ne.symm other)

/-- The expression of a glob is found in a path exactly if the segments of the glob stand for
components of it, one after the other. -/
theorem regex_hits_iff [Text.CharacterNames] (glob : Glob) (path : EntryPath)
    (lone : path.trailing = true → glob.segments.getLast? ≠ some (.word [.anyRun])) :
    ∃ regex, (compile glob.text).regex = .ok regex ∧
      (regex.hits path.text = true ↔ glob.Hits path) := by
  obtain ⟨regex, read⟩ := glob.exists_regex
  refine ⟨regex, read, ?_⟩
  rw [Regex.hits_iff]
  constructor
  · rintro ⟨front, found, behind, split, matched⟩
    by_cases more : glob.segments = [.doubleStar]
    · rcases hitsAt_or_swallows glob regex read path front found behind split matched with
        ⟨before, taken, after, hit, _⟩ | ⟨entry, _⟩
      · exact ⟨before, taken, after, hit⟩
      · -- Nothing but `**`, and not for directories only: it takes the whole path.
        refine ⟨[], path.components, [], by simp, fun _ => rfl, ?_, fun _ => path.nonempty,
          fun directories => absurd directories entry⟩
        rw [more]
        exact ⟨path.components, [], by simp, rfl⟩
    · obtain ⟨before, taken, after, hit, _⟩ :=
        hitsAt_of_matches glob regex read more path lone front found behind split matched
      exact ⟨before, taken, after, hit⟩
  · rintro ⟨before, taken, after, hit⟩
    obtain ⟨behind, split, matched⟩ :=
      matches_of_hitsAt glob regex read path before taken after hit
    exact ⟨_, _, behind, split, matched⟩

/-- The glob `a/**/*b`. -/
def sample : Glob where
  rooted := false
  segments := [.word [.literal 'a'], .doubleStar, .word [.anyRun, .literal 'b']]
  directory := false
  nonempty := by simp
  proper := by
    refine ⟨fun items member => ?_, by simp⟩
    simp only [List.mem_cons, Segment.word.injEq, reduceCtorEq, List.not_mem_nil, or_false,
      false_or] at member
    rcases member with rfl | rfl <;> exact ⟨by simp, by simp [IsLiteral], by simp⟩
  visible := ⟨'a', by decide, by decide⟩

/-- The path `/a/x/yb/`. -/
def samplePath : EntryPath where
  components := [['a'], ['x'], ['y', 'b']]
  trailing := true
  nonempty := by simp
  names := by
    intro component member
    simp only [List.mem_cons, List.not_mem_nil, or_false] at member
    rcases member with rfl | rfl | rfl <;> exact ⟨by decide, by decide, by decide⟩

theorem regex_hits_sample :
    (samplePath.trailing = true → sample.segments.getLast? ≠ some (.word [.anyRun])) ∧
      ∃ regex, (compile "a/**/*b".toList).regex = .ok regex ∧
        regex.hits "/a/x/yb/".toList = true := by
  have lone : samplePath.trailing = true →
      sample.segments.getLast? ≠ some (.word [.anyRun]) := by simp [sample]
  obtain ⟨regex, read, hits⟩ := regex_hits_iff sample samplePath lone
  have stands : Segment.Accept sample.segments [['a'], ['x'], ['y', 'b']] :=
    ⟨['a'], _, rfl, ⟨[], rfl, rfl⟩, [['x']], _, rfl, ['y', 'b'], [], rfl,
      ⟨['y'], ['b'], rfl, [], rfl, rfl⟩, rfl⟩
  exact ⟨lone, regex, read, hits.mpr ⟨[], _, [], rfl, fun _ => rfl, stands,
    fun same => by simp [sample] at same, fun _ => .inr rfl⟩⟩

end IgnoreRules.Pattern.Glob

namespace IgnoreRules.Rule

open Pattern

/-! ## Patterns without visible text -/

/-- The name of an entry cannot be all blank in a pattern. What is blank between the separators at
the ends is dropped, and all that is left to find is the separator at the end of a path. -/
theorem hits_of_blank [Text.CharacterNames] (pattern : List Char)
    (blank : Text.trim (Outline.ofPattern pattern).body = []) (path : EntryPath) :
    ∃ regex, (compile pattern).regex = .ok regex ∧
      (regex.hits path.text = true ↔ (compile pattern).rooted = false ∧
        (compile pattern).directoryOnly = false ∧ path.trailing = true) := by
  have absent : '[' ∉ (Outline.ofPattern pattern).body := fun member =>
    Text.trim_nonempty _ ⟨'[', member, by decide⟩ blank
  refine ⟨_, regex_of_blank pattern absent blank, ?_⟩
  constructor
  · intro hit
    obtain ⟨front, found, behind, split, matched⟩ := (Regex.hits_iff _ _).mp hit
    rcases takes_or_swallows _ _ _ path.components path.trailing path.names front found behind split
      matched with
      ⟨before, taken, after, takes, _⟩ | ⟨entry, trailing, before, rest, same, start, accepted⟩
    · -- What is taken would be a component without a name.
      obtain ⟨_, _, alone, rfl, rfl⟩ := takes.accepted
      cases taken with
      | nil => cases alone
      | cons component taken =>
        have named := path.names component (by simp [takes.components])
        simp [named.nonempty] at alone
    · obtain ⟨_, _, alone, rfl, rfl⟩ := accepted
      obtain rfl : rest = [] := by simpa [trail_eq_nil] using alone
      refine ⟨?_, entry, trailing⟩
      cases rooted : (compile pattern).rooted with
      | false => rfl
      | true => exact absurd (by simpa [start rooted] using same) path.nonempty
  · rintro ⟨unrooted, entry, trailing⟩
    rw [entry, EntryPath.text, trailing]
    exact hits_of_accepts _ [] (trail path.components) [] [] (by simp [unrooted]) rfl (.inl rfl)

end IgnoreRules.Rule
