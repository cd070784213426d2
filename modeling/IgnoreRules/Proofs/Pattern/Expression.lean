import IgnoreRules.Proofs.Glob.Path
import IgnoreRules.Proofs.Pattern.Hits
import IgnoreRules.Proofs.Pattern.Plain

/-!
# The expression of a rule

Without brackets the expression of a rule is made of its two flags and of the marks of its text. A
match starts at a separator of the path, so it starts where some component does. It also ends where
one does, unless what the marks accept may end with the separator at the end of a path.
-/

namespace IgnoreRules.Rule

open Pattern
open Regex (sequence endsHere)

/-- The expression of a rule with these flags and marks. -/
def expression (rooted directoryOnly : Bool) (marks : List Mark) : Regex :=
  sequence (opening rooted ++ marks.map Mark.regex ++ closing directoryOnly)

/-- The rule of a pattern without brackets has the expression of its marks. -/
theorem regex_of_plain [Text.CharacterNames] (pattern : List Char)
    (whole : Division.ofText (Outline.ofPattern pattern).body =
      .plain (Outline.ofPattern pattern).body)
    (visible : Text.trim (Outline.ofPattern pattern).body ≠ []) :
    (compile pattern).regex = .ok (expression (compile pattern).rooted
      (compile pattern).directoryOnly (Mark.ofText (Outline.ofPattern pattern).body)) :=
  (reads_of_plain pattern whole visible).read

theorem regex_of_blank [Text.CharacterNames] (pattern : List Char)
    (absent : '[' ∉ (Outline.ofPattern pattern).body)
    (blank : Text.trim (Outline.ofPattern pattern).body = []) :
    (compile pattern).regex =
      .ok (expression (compile pattern).rooted (compile pattern).directoryOnly []) :=
  (reads_of_blank pattern absent blank).read

/-- Without brackets the flags are those of the separators at the ends and those of the text
between them. -/
theorem flags_of_plain [Text.CharacterNames] (pattern : List Char)
    (whole : Division.ofText (Outline.ofPattern pattern).body =
      .plain (Outline.ofPattern pattern).body) :
    (compile pattern).rooted = ((Outline.ofPattern pattern).rooted ||
        (Outline.ofPattern pattern).body.contains '/') ∧
      (compile pattern).directoryOnly = ((Outline.ofPattern pattern).directoryOnly ||
        (Fragment.ofText (Outline.ofPattern pattern).body).forcesDirectory) := by
  rw [compile_of_plain _ whole]
  simp only [withoutBrackets, assemble, hasSeparator, forcesDirectory, Division.plain,
    List.any_nil, Bool.false_or, and_self]

theorem Outline.ofPattern_bare (pattern : List Char) (starts : pattern.head? ≠ some '/')
    (ends : pattern.getLast? ≠ some '/') : Outline.ofPattern pattern = ⟨pattern, false, false⟩ := by
  simp [Outline.ofPattern, starts, ends]

/-- The rule of a pattern without separators at its ends is rooted by one between them, and it is
for directories only where the pattern has a final `/**`. -/
theorem regex_of_bare [Text.CharacterNames] (pattern : List Char)
    (starts : pattern.head? ≠ some '/') (ends : pattern.getLast? ≠ some '/')
    (whole : Division.ofText pattern = .plain pattern) (visible : Text.trim pattern ≠ []) :
    (compile pattern).regex = .ok (expression (pattern.contains '/')
      (Fragment.ofText pattern).forcesDirectory (Mark.ofText pattern)) := by
  have outline := Outline.ofPattern_bare pattern starts ends
  obtain ⟨rooted, directoryOnly⟩ := flags_of_plain pattern (by rwa [outline])
  rw [regex_of_plain pattern (by rwa [outline]) (by rwa [outline]), rooted, directoryOnly, outline,
    Bool.false_or, Bool.false_or]

/-- A match is a separator, what the marks accept, and a separator or the end. -/
theorem matches_expression (rooted directoryOnly : Bool) (marks : List Mark) (position : Nat)
    (text after : List Char) :
    (expression rooted directoryOnly marks).Matches position text after ↔
      (rooted = true → position = 0) ∧ ∃ body last, text = '/' :: (body ++ last) ∧
        Mark.AcceptsAll marks body ∧
        (last = ['/'] ∨ (directoryOnly = false ∧ last = [] ∧ endsHere after = true)) := by
  rw [expression, matches_whole]
  simp only [Mark.matches_marks]

/-- A rule that is not for directories only is hit where its marks accept what stands behind a
separator, up to the next one or to an end. -/
theorem hits_of_accepts (rooted : Bool) (marks : List Mark) (front body behind : List Char)
    (start : rooted = true → front = []) (accepted : Mark.AcceptsAll marks body)
    (ends : endsHere behind = true ∨ ∃ rest, behind = '/' :: rest) :
    (expression rooted false marks).hits (front ++ '/' :: (body ++ behind)) = true := by
  rw [Regex.hits_iff]
  have first (fixed : rooted = true) : front.length = 0 := by simp [start fixed]
  rcases ends with final | ⟨rest, rfl⟩
  · exact ⟨front, '/' :: body, behind, by simp, (matches_expression _ _ _ _ _ _).mpr
      ⟨first, body, [], by simp, accepted, .inr ⟨rfl, rfl, final⟩⟩⟩
  · exact ⟨front, '/' :: (body ++ ['/']), rest, by simp, (matches_expression _ _ _ _ _ _).mpr
      ⟨first, body, ['/'], rfl, accepted, .inl rfl⟩⟩

theorem acceptsAll_separator (marks : List Mark) (body : List Char) :
    Mark.AcceptsAll (.char '/' :: marks) ('/' :: body) ↔ Mark.AcceptsAll marks body := by
  constructor
  · rintro ⟨_, rest, same, rfl, accepted⟩
    obtain rfl := (List.cons.inj same).2
    exact accepted
  · intro accepted
    exact ⟨['/'], body, rfl, rfl, accepted⟩

theorem inLine_path (components : List (List Char)) (trailing : Bool)
    (names : ∀ component ∈ components, IsName component) :
    '\n' ∉ trail components ++ ending trailing := by
  have inside := inLine_trail components names
  cases trailing <;> simp [ending, inside]

/-! ## Entries -/

/-- Marks take a stretch of the components of a path. -/
structure Takes (rooted directoryOnly : Bool) (marks : List Mark) (components : List (List Char))
    (trailing : Bool) (before taken after : List (List Char)) : Prop where
  components : components = before ++ taken ++ after
  rooted : rooted = true → before = []
  accepted : Mark.AcceptsAll (.char '/' :: marks) (trail taken)
  inside : directoryOnly = true → after ≠ [] ∨ trailing = true

section
variable (rooted directoryOnly : Bool) (marks : List Mark) (components : List (List Char))
  (trailing : Bool) (names : ∀ component ∈ components, IsName component)

/-- Where marks take some components there is a match of the expression. -/
theorem matches_of_takes (before taken after : List (List Char))
    (takes : Takes rooted directoryOnly marks components trailing before taken after) :
    ∃ behind, trail components ++ ending trailing =
        trail before ++ (trail taken ++ ending (!after.isEmpty || trailing)) ++ behind ∧
      (expression rooted directoryOnly marks).Matches (trail before).length
        (trail taken ++ ending (!after.isEmpty || trailing)) behind := by
  obtain ⟨body, split, accepted⟩ : ∃ body, trail taken = '/' :: body ∧
      Mark.AcceptsAll marks body := by
    obtain ⟨_, body, split, rfl, accepted⟩ := takes.accepted
    exact ⟨body, split, accepted⟩
  have start (fixed : rooted = true) : (trail before).length = 0 := by
    simp [takes.rooted fixed]
  simp only [matches_expression, takes.components]
  -- Behind the components taken stands a separator, or the path ends there.
  cases stops : !after.isEmpty || trailing with
  | true =>
    obtain ⟨behind, same⟩ : ∃ behind, trail after ++ ending trailing = '/' :: behind := by
      cases after with
      | cons component after => exact ⟨_, rfl⟩
      | nil =>
        have trailing : trailing = true := by simpa using stops
        exact ⟨[], by simp [trailing, ending]⟩
    refine ⟨behind, ?_, start, body, ['/'], by simp [ending, split], accepted, .inl rfl⟩
    simp only [trail_append, List.append_assoc, same]
    simp [ending]
  | false =>
    simp only [Bool.or_eq_false_iff, Bool.not_eq_false', List.isEmpty_iff] at stops
    obtain ⟨rfl, rfl⟩ := stops
    have entry : directoryOnly = false := by
      cases directories : directoryOnly with
      | false => rfl
      | true => simpa using takes.inside directories
    exact ⟨[], by simp [ending], start, body, [], by simp [ending, split], accepted,
      .inr ⟨entry, rfl, rfl⟩⟩

include names in
/-- Every match takes components. Only where the last separator of the path lies within the match is
there another way. -/
theorem takes_or_swallows (front found behind : List Char)
    (split : trail components ++ ending trailing = front ++ found ++ behind)
    (matched : (expression rooted directoryOnly marks).Matches front.length found behind) :
    (∃ before taken after,
      Takes rooted directoryOnly marks components trailing before taken after ∧
        front = trail before ∧ found = trail taken ++ ending (!after.isEmpty || trailing)) ∨
    (directoryOnly = false ∧ trailing = true ∧ ∃ before rest, components = before ++ rest ∧
      (rooted = true → before = []) ∧ Mark.AcceptsAll (.char '/' :: marks) (trail rest ++ ['/'])) := by
  obtain ⟨start, body, last, rfl, accepted, ended⟩ := (matches_expression _ _ _ _ _ _).mp matched
  rw [← acceptsAll_separator] at accepted
  obtain ⟨before, rest, rfl, rfl, within⟩ :=
    trail_cut components trailing names front (body ++ last ++ behind) (by simpa using split)
  have named : ∀ component ∈ rest, IsName component := fun component member =>
    names component (by simp [member])
  have anchored (fixed : rooted = true) : before = [] :=
    (trail_eq_nil before).mp (List.length_eq_zero_iff.mp (start fixed))
  rcases ended with rfl | ⟨entry, rfl, final⟩
  · -- The match ends with a separator of the path.
    obtain ⟨taken, after, rfl, text, stops⟩ := trail_cut rest trailing named ('/' :: body) behind
      (by simpa using within.symm)
    have stop : (!after.isEmpty || trailing) = true := by
      cases after with
      | cons => rfl
      | nil =>
        cases trailing with
        | true => rfl
        | false => simp [ending] at stops
    rw [text] at accepted
    refine .inl ⟨before, taken, after, ⟨by simp, anchored, accepted, fun _ => ?_⟩, rfl, ?_⟩
    · cases after with
      | cons => exact .inl (by simp)
      | nil => exact .inr (by simpa using stop)
    · rw [stop, ← text]
      rfl
  · -- The match ends with the path, since no line feed can stand behind it.
    obtain rfl : behind = [] := Regex.eq_nil_of_endsHere behind (fun member =>
      inLine_path _ trailing names (by rw [split]; exact List.mem_append_right _ member)) final
    simp only [List.append_nil] at within
    rw [within] at accepted
    cases trailing with
    | true => exact .inr ⟨entry, rfl, before, rest, rfl, anchored, accepted⟩
    | false =>
      simp only [ending, Bool.false_eq_true, if_false, List.append_nil] at within accepted
      refine .inl ⟨before, rest, [], ⟨by simp, anchored, accepted, fun directories => ?_⟩, rfl, ?_⟩
      · simp [entry] at directories
      · simp [ending, within]

include names in
/-- Marks whose texts end with the character of a name are found where they take components, and
nowhere else. -/
theorem hits_expression_iff (closed : ∀ text, Mark.AcceptsAll (.char '/' :: marks) text →
      ∃ front last, text = front ++ [last] ∧ last ≠ '/') :
    (expression rooted directoryOnly marks).hits (trail components ++ ending trailing) = true ↔
      ∃ before taken after,
        Takes rooted directoryOnly marks components trailing before taken after := by
  rw [Regex.hits_iff]
  constructor
  · rintro ⟨front, found, behind, split, matched⟩
    rcases takes_or_swallows rooted directoryOnly marks components trailing names front found behind
      split matched with ⟨before, taken, after, takes, _⟩ | ⟨_, _, _, rest, _, _, accepted⟩
    · exact ⟨before, taken, after, takes⟩
    · obtain ⟨front, last, ended, other⟩ := closed _ accepted
      exact absurd (List.append_inj_right' ended rfl) (by simpa using Ne.symm other)
  · rintro ⟨before, taken, after, takes⟩
    obtain ⟨behind, split, matched⟩ :=
      matches_of_takes rooted directoryOnly marks components trailing before taken after takes
    exact ⟨_, _, behind, split, matched⟩

include names in
/-- A rooted rule takes components from the first one on. -/
theorem hits_rooted_iff (closed : ∀ text, Mark.AcceptsAll (.char '/' :: marks) text →
      ∃ front last, text = front ++ [last] ∧ last ≠ '/') :
    (expression true false marks).hits (trail components ++ ending trailing) = true ↔
      ∃ taken after, components = taken ++ after ∧
        Mark.AcceptsAll (.char '/' :: marks) (trail taken) := by
  rw [hits_expression_iff true false marks components trailing names closed]
  constructor
  · rintro ⟨before, taken, after, takes⟩
    obtain rfl := takes.rooted rfl
    exact ⟨taken, after, takes.components, takes.accepted⟩
  · rintro ⟨taken, after, components, accepted⟩
    exact ⟨[], taken, after, ⟨components, fun _ => rfl, accepted, nofun⟩⟩

end
end IgnoreRules.Rule
