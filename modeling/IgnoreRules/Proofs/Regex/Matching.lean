import IgnoreRules.Regex.Search

/-!
# What a search finds

`Matches` says which texts an expression matches, whatever the order in which the choices are
tried. A search succeeds exactly if some stretch of the text is matched, and the stretch it
reports is one that the expression matches.
-/

namespace IgnoreRules.Regex

/-- An expression matches a text that starts at a position and is followed by `after`. -/
def Matches : Regex → Nat → List Char → List Char → Prop
  | .empty, _, text, _ => text = []
  | .never, _, _, _ => False
  | .atStart, position, text, _ => text = [] ∧ position = 0
  | .atEnd, _, text, after => text = [] ∧ endsHere after = true
  | .one set, _, text, _ => ∃ c, text = [c] ∧ set.contains c = true
  | .many set, _, text, _ => ∀ c ∈ text, set.contains c = true
  | .seq first second, position, text, after =>
    ∃ left right, text = left ++ right ∧ first.Matches position left (right ++ after) ∧
      second.Matches (position + left.length) right after
  | .alt left right, position, text, after =>
    left.Matches position text after ∨ right.Matches position text after

theorem endsHere_iff (text : List Char) : endsHere text = true ↔ text = [] ∨ text = ['\n'] := by
  unfold endsHere
  split <;> simp_all

/-- A text without line feeds ends where an expression may end. -/
theorem eq_nil_of_endsHere (text : List Char) (inLine : '\n' ∉ text)
    (ends : endsHere text = true) : text = [] := by
  rcases (endsHere_iff text).mp ends with rfl | rfl
  · rfl
  · exact absurd (by simp) inLine

/-- Behind a text that does not end in a line feed an expression may end only with the text. -/
theorem eq_nil_of_getLast? (before after : List Char)
    (inLine : (before ++ after).getLast? ≠ some '\n') (ends : endsHere after = true) :
    after = [] := by
  rcases (endsHere_iff after).mp ends with rfl | rfl
  · rfl
  · exact absurd List.getLast?_concat inLine

private theorem runMany_sound {α : Type} (set : CharClass) (accept : Nat → List Char → Option α)
    (position : Nat) (rest : List Char) (found : α)
    (returned : runMany set accept position rest = some found) :
    ∃ text after, rest = text ++ after ∧ (∀ c ∈ text, set.contains c = true) ∧
      accept (position + text.length) after = some found := by
  -- A longer run is tried first, and its success is that of the run from the next character.
  induction rest generalizing position with
  | nil => exact ⟨[], [], rfl, by simp, by simpa [runMany] using returned⟩
  | cons c rest ih =>
    simp only [runMany] at returned
    split at returned
    next member =>
      cases further : runMany set accept (position + 1) rest with
      | none =>
        rw [further] at returned
        exact ⟨[], c :: rest, rfl, by simp, by simpa using returned⟩
      | some other =>
        rw [further, Option.some.injEq] at returned
        subst other
        obtain ⟨text, after, split, inside, accepted⟩ := ih (position + 1) further
        refine ⟨c :: text, after, by simp [split], ?_, ?_⟩
        · simpa using ⟨member, inside⟩
        · rw [← accepted, List.length_cons]
          congr 1
          omega
    next => exact ⟨[], c :: rest, rfl, by simp, by simpa using returned⟩

private theorem runMany_complete {α : Type} (set : CharClass) (accept : Nat → List Char → Option α)
    (position : Nat) (text after : List Char) (inside : ∀ c ∈ text, set.contains c = true)
    (accepted : (accept (position + text.length) after).isSome = true) :
    (runMany set accept position (text ++ after)).isSome = true := by
  induction text generalizing position with
  | nil =>
    simp only [List.length_nil, Nat.add_zero, List.nil_append] at accepted ⊢
    cases after with
    | nil => simpa [runMany] using accepted
    | cons c rest =>
      simp only [runMany]
      split
      · split <;> simp [accepted]
      · exact accepted
  | cons c text ih =>
    have member : set.contains c = true := inside c (by simp)
    have further := ih (position + 1) (fun d present => inside d (by simp [present])) (by
      rw [← accepted, List.length_cons]
      congr 2
      omega)
    obtain ⟨found, returned⟩ := Option.isSome_iff_exists.mp further
    simp [runMany, member, returned]

/-- Whatever a run accepts follows a match. -/
theorem run_sound {α : Type} (regex : Regex) (accept : Nat → List Char → Option α)
    (position : Nat) (rest : List Char) (found : α)
    (returned : regex.run accept position rest = some found) :
    ∃ text after, rest = text ++ after ∧ regex.Matches position text after ∧
      accept (position + text.length) after = some found := by
  -- The induction is on the expression. The continuation changes in a sequence, where the second
  -- part is what the first one continues with.
  induction regex generalizing accept position rest with
  | empty => exact ⟨[], rest, rfl, rfl, returned⟩
  | never => simp [run] at returned
  | atStart =>
    simp only [run] at returned
    split at returned
    next start => exact ⟨[], rest, rfl, ⟨rfl, start⟩, returned⟩
    next => simp at returned
  | atEnd =>
    simp only [run] at returned
    split at returned
    next ends => exact ⟨[], rest, rfl, ⟨rfl, ends⟩, returned⟩
    next => simp at returned
  | one set =>
    cases rest with
    | nil => simp [run] at returned
    | cons c rest =>
      simp only [run] at returned
      split at returned
      next member => exact ⟨[c], rest, rfl, ⟨c, rfl, member⟩, returned⟩
      next => simp at returned
  | many set => exact runMany_sound set accept position rest found returned
  | seq first second ihFirst ihSecond =>
    obtain ⟨left, middle, splitLeft, matchesLeft, returned⟩ := ihFirst _ position rest returned
    obtain ⟨right, after, splitRight, matchesRight, accepted⟩ := ihSecond _ _ middle returned
    subst splitRight splitLeft
    refine ⟨left ++ right, after, by simp, ⟨left, right, rfl, matchesLeft, matchesRight⟩, ?_⟩
    rw [← accepted, List.length_append, Nat.add_assoc]
  | alt left right ihLeft ihRight =>
    simp only [run] at returned
    split at returned
    next other first =>
      rw [Option.some.injEq] at returned
      subst other
      obtain ⟨text, after, split, matched, accepted⟩ := ihLeft _ position rest first
      exact ⟨text, after, split, .inl matched, accepted⟩
    next =>
      obtain ⟨text, after, split, matched, accepted⟩ := ihRight _ position rest returned
      exact ⟨text, after, split, .inr matched, accepted⟩

/-- No match that a continuation accepts is passed over in the end. -/
theorem run_complete {α : Type} (regex : Regex) (accept : Nat → List Char → Option α)
    (position : Nat) (text after : List Char) (matched : regex.Matches position text after)
    (accepted : (accept (position + text.length) after).isSome = true) :
    (regex.run accept position (text ++ after)).isSome = true := by
  induction regex generalizing accept position text after with
  | empty =>
    subst matched
    exact accepted
  | never => exact matched.elim
  | atStart =>
    obtain ⟨rfl, rfl⟩ := matched
    exact accepted
  | atEnd =>
    obtain ⟨rfl, ends⟩ := matched
    simpa [run, ends] using accepted
  | one set =>
    obtain ⟨c, rfl, member⟩ := matched
    simpa [run, member] using accepted
  | many set => exact runMany_complete set accept position text after matched accepted
  | seq first second ihFirst ihSecond =>
    obtain ⟨left, right, rfl, matchesLeft, matchesRight⟩ := matched
    rw [List.length_append, ← Nat.add_assoc] at accepted
    rw [List.append_assoc]
    exact ihFirst _ position left _ matchesLeft (ihSecond accept _ right after matchesRight accepted)
  | alt left right ihLeft ihRight =>
    simp only [run]
    rcases matched with matched | matched
    · obtain ⟨found, returned⟩ := Option.isSome_iff_exists.mp
        (ihLeft accept position text after matched accepted)
      simp [returned]
    -- Another match of the left branch may come first, and that is a success as well.
    · split
      · rfl
      · exact ihRight accept position text after matched accepted

private theorem matchEnd?_sound (regex : Regex) (position : Nat) (rest : List Char) (stop : Nat)
    (returned : regex.matchEnd? position rest = some stop) :
    ∃ text after, rest = text ++ after ∧ regex.Matches position text after ∧
      rest.take (stop - position) = text := by
  obtain ⟨text, after, rfl, matched, accepted⟩ := run_sound regex _ position rest stop returned
  rw [Option.some.injEq] at accepted
  subst accepted
  exact ⟨text, after, rfl, matched, by simp⟩

private theorem searchFrom_sound (regex : Regex) (position : Nat) (rest : List Char) (hit : Hit)
    (returned : regex.searchFrom position rest = some hit) :
    ∃ before after, rest = before ++ hit.text ++ after ∧ hit.start = position + before.length ∧
      regex.Matches hit.start hit.text after := by
  induction rest generalizing position with
  | nil =>
    rw [searchFrom] at returned
    split at returned
    next stop found =>
      rw [Option.some.injEq] at returned
      subst returned
      obtain ⟨text, after, split, matched, same⟩ := matchEnd?_sound regex position [] stop found
      exact ⟨[], after, by simpa [same] using split, rfl, by simpa [same] using matched⟩
    next => simp at returned
  | cons c rest ih =>
    rw [searchFrom] at returned
    split at returned
    next stop found =>
      rw [Option.some.injEq] at returned
      subst returned
      obtain ⟨text, after, split, matched, same⟩ := matchEnd?_sound regex position _ stop found
      exact ⟨[], after, by simpa [same] using split, rfl, by simpa [same] using matched⟩
    next =>
      obtain ⟨before, after, split, start, matched⟩ := ih (position + 1) returned
      refine ⟨c :: before, after, by simp [split], ?_, matched⟩
      rw [start, List.length_cons]
      omega

private theorem searchFrom_complete (regex : Regex) (position : Nat) (before text after : List Char)
    (matched : regex.Matches (position + before.length) text after) :
    ∃ hit, regex.searchFrom position (before ++ text ++ after) = some hit ∧
      hit.start ≤ position + before.length := by
  induction before generalizing position with
  | nil =>
    have found := run_complete regex (fun stop _ => some stop) position text after matched rfl
    obtain ⟨stop, returned⟩ := Option.isSome_iff_exists.mp found
    refine ⟨⟨position, (text ++ after).take (stop - position)⟩, ?_, Nat.le_refl position⟩
    rw [searchFrom.eq_def]
    simp [matchEnd?, returned]
  | cons c before ih =>
    obtain ⟨hit, further, start⟩ := ih (position + 1) (by
      rw [List.length_cons, Nat.add_comm before.length 1, ← Nat.add_assoc] at matched
      exact matched)
    rw [List.cons_append, List.cons_append, searchFrom]
    split
    · exact ⟨_, rfl, Nat.le_add_right position _⟩
    · refine ⟨hit, further, ?_⟩
      rw [List.length_cons]
      omega

/-- What a search reports is matched where it stands. -/
theorem search_sound (regex : Regex) (text : List Char) (hit : Hit)
    (returned : regex.search text = some hit) :
    ∃ before after, text = before ++ hit.text ++ after ∧ hit.start = before.length ∧
      regex.Matches hit.start hit.text after := by
  simpa using searchFrom_sound regex 0 text hit returned

/-- No stretch that an expression matches begins in front of the one that a search reports. -/
theorem search_leftmost (regex : Regex) (hit : Hit) (before found after : List Char)
    (returned : regex.search (before ++ found ++ after) = some hit)
    (matched : regex.Matches before.length found after) : hit.start ≤ before.length := by
  obtain ⟨other, again, start⟩ :=
    searchFrom_complete regex 0 before found after (by simpa using matched)
  obtain rfl := Option.some.inj (returned.symm.trans again)
  simpa using start

/-- An expression hits a text exactly if it matches some stretch of it. -/
theorem hits_iff (regex : Regex) (text : List Char) :
    regex.hits text = true ↔ ∃ before found after, text = before ++ found ++ after ∧
      regex.Matches before.length found after := by
  constructor
  · intro hit
    obtain ⟨found, returned⟩ := Option.isSome_iff_exists.mp hit
    obtain ⟨before, after, split, start, matched⟩ := search_sound regex text found returned
    exact ⟨before, found.text, after, split, start ▸ matched⟩
  · rintro ⟨before, found, after, rfl, matched⟩
    obtain ⟨hit, returned, _⟩ :=
      searchFrom_complete regex 0 before found after (by simpa using matched)
    exact Option.isSome_iff_exists.mpr ⟨hit, returned⟩

/-! ## Sequences and choices -/

@[simp] theorem matches_sequence_nil (position : Nat) (text after : List Char) :
    (sequence []).Matches position text after ↔ text = [] := Iff.rfl

theorem matches_sequence_cons (piece : Regex) (pieces : List Regex) (position : Nat)
    (text after : List Char) :
    (sequence (piece :: pieces)).Matches position text after ↔
      ∃ left right, text = left ++ right ∧ piece.Matches position left (right ++ after) ∧
        (sequence pieces).Matches (position + left.length) right after := by
  cases pieces with
  | nil =>
    constructor
    · intro matched
      exact ⟨text, [], by simp, matched, rfl⟩
    · rintro ⟨left, right, rfl, matched, rfl⟩
      rw [List.append_nil]
      exact matched
  | cons => exact Iff.rfl

theorem matches_sequence_append (pieces more : List Regex) (position : Nat)
    (text after : List Char) :
    (sequence (pieces ++ more)).Matches position text after ↔
      ∃ left right, text = left ++ right ∧
        (sequence pieces).Matches position left (right ++ after) ∧
        (sequence more).Matches (position + left.length) right after := by
  induction pieces generalizing position text with
  | nil =>
    constructor
    · intro matched
      exact ⟨[], text, rfl, rfl, matched⟩
    · rintro ⟨left, right, rfl, rfl, matched⟩
      exact matched
  | cons piece pieces ih =>
    rw [List.cons_append, matches_sequence_cons]
    constructor
    · rintro ⟨first, rest, rfl, matched, others⟩
      obtain ⟨left, right, rfl, matchedLeft, matchedRight⟩ := (ih _ _).mp others
      refine ⟨first ++ left, right, by simp, ?_, ?_⟩
      · exact (matches_sequence_cons _ _ _ _ _).mpr
          ⟨first, left, rfl, by simpa using matched, matchedLeft⟩
      · simpa [Nat.add_assoc] using matchedRight
    · rintro ⟨left, right, rfl, matchedLeft, matchedRight⟩
      obtain ⟨first, rest, rfl, matched, others⟩ := (matches_sequence_cons _ _ _ _ _).mp matchedLeft
      refine ⟨first, rest ++ right, by simp, by simpa using matched, ?_⟩
      exact (ih _ _).mpr ⟨rest, right, rfl, others, by simpa [Nat.add_assoc] using matchedRight⟩

theorem matches_choice (branches : List Regex) (position : Nat) (text after : List Char) :
    (choice branches).Matches position text after ↔
      ∃ branch ∈ branches, branch.Matches position text after := by
  induction branches with
  | nil => simp [choice, Matches]
  | cons branch branches ih =>
    cases branches with
    | nil => simp [choice]
    | cons next branches =>
      change branch.Matches position text after ∨
        (choice (next :: branches)).Matches position text after ↔ _
      rw [ih]
      simp

/-- A choice hits what one of its branches hits. -/
theorem hits_choice (branches : List Regex) (text : List Char) :
    (choice branches).hits text = true ↔ ∃ branch ∈ branches, branch.hits text = true := by
  simp only [hits_iff, matches_choice]
  constructor
  · rintro ⟨before, found, after, split, branch, member, matched⟩
    exact ⟨branch, member, before, found, after, split, matched⟩
  · rintro ⟨branch, member, before, found, after, split, matched⟩
    exact ⟨before, found, after, split, branch, member, matched⟩

end IgnoreRules.Regex
