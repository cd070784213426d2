import IgnoreRules.Proofs.Outcome
import IgnoreRules.Regex.Reader

/-!
# Reading in parts

A source whose tokens are complete can be read without knowing what follows it, and tokens that
close every group they open can be taken in any state. So a source that reads as a sequence of
pieces does so wherever it stands, and a source that can be read alone can be read in a group.
-/

namespace IgnoreRules.Regex

section Scanning

variable [Text.CharacterNames]

namespace Token

theorem scan_character (c : Char) (token : Token) (known : ofChar c = .ok token)
    (closed : c ≠ '[') (rest : List Char) :
    scan none (c :: rest) = (do return token :: (← scan none rest)) := by
  have escape : c ≠ '\\' := by
    rintro rfl
    cases known
  have group : c ≠ '(' := by
    rintro rfl
    cases known
  rw [scan.eq_9 c rest (fun _ _ same => absurd same escape) (fun _ same => absurd same group)
    (fun _ same => absurd same group) (fun _ same => absurd same closed)
    (fun _ same => absurd same closed) (fun _ same => absurd same closed) closed, known]
  rfl

/-! Characters of a class, where the first one after the bracket may be a bracket or a caret. -/

theorem scan_open (c : Char) (rest : List Char) (plain : c ≠ '^') (closed : c ≠ ']') :
    scan none ('[' :: c :: rest) = scan (some []) (c :: rest) := by
  rw [scan.eq_8 _ (by simp [plain]) (by simp [plain]) (by simp [closed])]

theorem scan_negated (c : Char) (rest : List Char) (closed : c ≠ ']') :
    scan none ('[' :: '^' :: c :: rest) = scan (some ['^']) (c :: rest) := by
  rw [scan.eq_6 _ (by simp [closed])]

theorem scan_member (contents : List Char) (c : Char) (rest : List Char) (plain : c ≠ '\\')
    (closed : c ≠ ']') :
    scan (some contents) (c :: rest) = scan (some (c :: contents)) rest := by
  rw [scan.eq_13 _ _ _ (by simp [plain]) closed]

theorem scan_escaped_member (contents : List Char) (c : Char) (rest : List Char) :
    scan (some contents) ('\\' :: c :: rest) = scan (some (c :: '\\' :: contents)) rest := by
  rw [scan.eq_11]

omit [Text.CharacterNames] in
private theorem cons_token {first : Except SyntaxError Token}
    {next : Except SyntaxError (List Token)} {tokens : List Token}
    (returned : (do return (← first) :: (← next)) = .ok tokens) :
    ∃ token rest, first = .ok token ∧ next = .ok rest ∧ tokens = token :: rest := by
  obtain ⟨token, known, returned⟩ := (bind_eq_ok_iff _ _ _).mp returned
  obtain ⟨rest, read, returned⟩ := (bind_eq_ok_iff _ _ _).mp returned
  exact ⟨token, rest, known, read, (Except.ok.inj returned).symm⟩

/-- The tokens of a complete source do not depend on what follows it. -/
theorem scan_append (mode : Option (List Char)) (source rest : List Char) (tokens : List Token)
    (complete : scan mode source = .ok tokens) :
    scan mode (source ++ rest) = (scan none rest).map (tokens ++ ·) := by
  fun_induction scan mode source generalizing tokens with
  | case1 =>
    cases complete
    cases further : scan none rest <;> simp [further, Except.map]
  | case2 c source ih =>
    obtain ⟨token, others, known, read, rfl⟩ := cons_token complete
    simp only [List.cons_append, scan, ih others read, known]
    cases scan none rest <;> rfl
  | case3 source ih =>
    obtain ⟨others, read, same⟩ := (bind_eq_ok_iff _ _ _).mp complete
    cases same
    simp only [List.cons_append, scan, ih others read]
    cases scan none rest <;> rfl
  | case4 source ih =>
    obtain ⟨others, read, same⟩ := (bind_eq_ok_iff _ _ _).mp complete
    cases same
    simp only [List.cons_append, scan, ih others read]
    cases scan none rest <;> rfl
  | case5 source ih =>
    simp only [List.cons_append, scan]
    exact ih tokens complete
  | case6 source closed ih =>
    -- A class that the source leaves open cannot take its first member from what follows.
    cases source with
    | nil => simp [scan] at complete
    | cons c source =>
      have other : c ≠ ']' := fun same => closed source (by rw [same])
      simp only [List.cons_append] at ih ⊢
      rw [scan_negated c _ other]
      exact ih tokens complete
  | case7 source ih =>
    simp only [List.cons_append, scan]
    exact ih tokens complete
  | case8 source negatedClosed negated closed ih =>
    cases source with
    | nil => simp [scan] at complete
    | cons c source =>
      have plain : c ≠ '^' := fun same => negated source (by rw [same])
      have other : c ≠ ']' := fun same => closed source (by rw [same])
      simp only [List.cons_append] at ih ⊢
      rw [scan_open c _ plain other]
      exact ih tokens complete
  | case9 c source _ _ _ _ _ _ closed ih =>
    obtain ⟨token, others, known, read, rfl⟩ := cons_token complete
    rw [List.cons_append, scan_character c token known closed, ih others read]
    cases scan none rest <;> rfl
  | case10 => simp at complete
  | case11 contents c source ih =>
    simp only [List.cons_append, scan]
    exact ih tokens complete
  | case12 contents source ih =>
    obtain ⟨set, known, complete⟩ := (bind_eq_ok_iff _ _ _).mp complete
    obtain ⟨others, read, same⟩ := (bind_eq_ok_iff _ _ _).mp complete
    cases same
    simp only [List.cons_append, scan, ih others read, known]
    cases scan none rest <;> rfl
  | case13 contents c source escape closed ih =>
    cases source with
    | nil => simp [scan] at complete
    | cons d source =>
      have plain : c ≠ '\\' := fun same => escape d source same rfl
      simp only [List.cons_append] at ih ⊢
      rw [scan_member contents c _ plain closed]
      exact ih tokens complete

end Token

end Scanning

namespace Group

/-- Append pieces to the current branch. -/
def extend (group : Group) (pieces : List Regex) : Group :=
  { group with pieces := pieces.reverse ++ group.pieces }

@[simp] theorem extend_nil (group : Group) : group.extend [] = group := rfl

@[simp] theorem extend_extend (group : Group) (pieces more : List Regex) :
    (group.extend pieces).extend more = group.extend (pieces ++ more) := by
  simp [extend]

@[simp] theorem push_eq (group : Group) (piece : Regex) :
    group.push piece = group.extend [piece] := rfl

theorem close_extend (pieces : List Regex) :
    (fresh.extend pieces).close = sequence pieces := by
  simp [close, split, fresh, extend, choice]

end Group

namespace Reading

/-- Append pieces to the innermost group. -/
def extend (state : Reading) (pieces : List Regex) : Reading :=
  { state with current := state.current.extend pieces }

/-- The same state inside further groups. -/
def inside (state : Reading) (groups : List Group) : Reading :=
  { state with outer := state.outer ++ groups }

private theorem step_inside (state next : Reading) (groups : List Group) (token : Token)
    (taken : state.step token = .ok next) :
    (state.inside groups).step token = .ok (next.inside groups) := by
  cases token with
  | openGroup =>
    cases taken
    rfl
  | closeGroup =>
    -- Closing a group that is not open fails, so the groups further out are never reached.
    obtain ⟨current, outer⟩ := state
    cases outer with
    | nil => cases taken
    | cons parent outer =>
      cases taken
      rfl
  | bar =>
    cases taken
    rfl
  | star =>
    simp only [step, inside] at taken ⊢
    split at taken
    · cases taken
      rfl
    · cases taken
  | plus =>
    simp only [step, inside] at taken ⊢
    split at taken
    · cases taken
      rfl
    · cases taken
  | piece regex =>
    cases taken
    rfl

/-- Groups around the ones that tokens open and close do not matter to them. -/
theorem foldlM_inside (tokens : List Token) (state last : Reading) (groups : List Group)
    (taken : tokens.foldlM step state = .ok last) :
    tokens.foldlM step (state.inside groups) = .ok (last.inside groups) := by
  induction tokens generalizing state with
  | nil =>
    cases taken
    rfl
  | cons token tokens ih =>
    rw [List.foldlM_cons] at taken ⊢
    obtain ⟨next, first, taken⟩ := (bind_eq_ok_iff _ _ _).mp taken
    rw [step_inside state next groups token first]
    exact ih next taken

end Reading

/-- Tokens that add pieces to whatever group they are met in. -/
def Lays (tokens : List Token) (pieces : List Regex) : Prop :=
  ∀ state : Reading, tokens.foldlM Reading.step state = .ok (state.extend pieces)

theorem Lays.nil : Lays [] [] := fun _ => rfl

theorem Lays.append {first second : List Token} {pieces more : List Regex}
    (left : Lays first pieces) (right : Lays second more) :
    Lays (first ++ second) (pieces ++ more) := by
  intro state
  rw [List.foldlM_append, left state]
  change second.foldlM Reading.step (state.extend pieces) = _
  rw [right]
  simp [Reading.extend]

theorem Lays.piece (regex : Regex) : Lays [.piece regex] [regex] := fun _ => rfl

theorem Lays.many (set : CharClass) : Lays [.piece (.one set), .star] [.many set] := fun _ => rfl

theorem Lays.some (set : CharClass) :
    Lays [.piece (.one set), .plus] [.seq (.one set) (.many set)] := fun _ => rfl

/-- A source in a group of its own. -/
def grouped (source : List Char) : List Char := "(?:".toList ++ source ++ [')']

section Reading

variable [Text.CharacterNames]

/-- A source that stands for a sequence of pieces wherever it is met outside a class. -/
def Reads (source : List Char) (pieces : List Regex) : Prop :=
  ∃ tokens, Token.scan none source = .ok tokens ∧ Lays tokens pieces

theorem Reads.nil : Reads [] [] := ⟨[], by simp [Token.scan], .nil⟩

theorem Reads.append {first second : List Char} {pieces more : List Regex}
    (left : Reads first pieces) (right : Reads second more) :
    Reads (first ++ second) (pieces ++ more) := by
  obtain ⟨tokens, scanned, laid⟩ := left
  obtain ⟨others, further, laidToo⟩ := right
  refine ⟨tokens ++ others, ?_, laid.append laidToo⟩
  rw [Token.scan_append none first second tokens scanned, further]
  rfl

theorem Reads.read {source : List Char} {pieces : List Regex} (reads : Reads source pieces) :
    read source = .ok (sequence pieces) := by
  obtain ⟨tokens, scanned, laid⟩ := reads
  rw [Regex.read, scanned]
  change (do (← tokens.foldlM Reading.step .fresh).finish) = _
  rw [laid]
  change Except.ok (Group.fresh.extend pieces).close = _
  rw [Group.close_extend]

/-- What reading a source leaves behind: the tokens and a state without open groups. -/
theorem read_ok {source : List Char} {regex : Regex} (returned : read source = .ok regex) :
    ∃ tokens last, Token.scan none source = .ok tokens ∧
      tokens.foldlM Reading.step .fresh = .ok last ∧ last.outer = [] ∧
      last.current.close = regex := by
  obtain ⟨tokens, scanned, returned⟩ := (bind_eq_ok_iff _ _ _).mp returned
  obtain ⟨last, taken, finished⟩ := (bind_eq_ok_iff _ _ _).mp returned
  obtain ⟨current, outer⟩ := last
  cases outer with
  | nil => exact ⟨tokens, _, scanned, taken, rfl, Except.ok.inj finished⟩
  | cons => cases finished

/-- Whatever can be read alone can be read in a group, and is one piece there. -/
theorem reads_grouped {source : List Char} {regex : Regex} (returned : read source = .ok regex) :
    Reads (grouped source) [regex] := by
  obtain ⟨tokens, last, scanned, taken, closed, same⟩ := read_ok returned
  refine ⟨.openGroup :: (tokens ++ [.closeGroup]), ?_, ?_⟩
  · have ended : Token.scan none [')'] = .ok [.closeGroup] := rfl
    change Token.scan none ('(' :: '?' :: ':' :: (source ++ [')'])) = _
    rw [Token.scan.eq_3, Token.scan_append none source [')'] tokens scanned, ended]
    rfl
  · intro state
    -- Between the parentheses the tokens see a fresh group, as they do alone.
    have nested := Reading.foldlM_inside tokens .fresh last (state.current :: state.outer) taken
    change (tokens ++ [Token.closeGroup]).foldlM Reading.step
      (Reading.fresh.inside (state.current :: state.outer)) = _
    rw [List.foldlM_append, nested]
    subst same
    simp only [Reading.inside, closed, List.nil_append]
    rfl

private theorem scan_bar (rest : List Char) :
    Token.scan none ('|' :: rest) = (Token.scan none rest).map (Token.bar :: ·) := by
  rw [Token.scan_character '|' .bar rfl (by decide)]
  cases Token.scan none rest <;> rfl

/-- Grouped sources with bars between them add a branch each. -/
private theorem foldlM_alternatives (parts : List (List Char × Regex))
    (readable : ∀ part ∈ parts, read part.1 = .ok part.2) (some : parts ≠ [])
    (branches : List Regex) :
    ∃ tokens last,
      Token.scan none (['|'].intercalate (parts.map fun part => grouped part.1)) = .ok tokens ∧
      tokens.foldlM Reading.step ⟨⟨branches, []⟩, []⟩ = .ok last ∧ last.outer = [] ∧
      last.current.close = choice (branches.reverse ++ parts.map Prod.snd) := by
  induction parts generalizing branches with
  | nil => exact absurd rfl some
  | cons part parts ih =>
    obtain ⟨tokens, scanned, laid⟩ := reads_grouped (readable part (by simp))
    cases parts with
    | nil =>
      refine ⟨tokens, _, by simpa using scanned, laid _, rfl, ?_⟩
      simp [Reading.extend, Group.extend, Group.close, Group.split, sequence]
    | cons next parts =>
      obtain ⟨more, last, further, taken, closed, same⟩ :=
        ih (fun other member => readable other (by simp [member])) (by simp) (part.2 :: branches)
      refine ⟨tokens ++ .bar :: more, last, ?_, ?_, closed, by simpa using same⟩
      · rw [List.map_cons, List.intercalate_cons_of_ne_nil (by simp), List.append_assoc,
          Token.scan_append none _ _ tokens scanned, List.singleton_append, scan_bar, further]
        rfl
      · rw [List.foldlM_append, laid]
        exact taken

/-- Sources that can be read alone can be read as alternatives, and are one branch each. -/
theorem read_alternatives (parts : List (List Char × Regex))
    (readable : ∀ part ∈ parts, read part.1 = .ok part.2) (some : parts ≠ []) :
    read (['|'].intercalate (parts.map fun part => grouped part.1)) =
      .ok (choice (parts.map Prod.snd)) := by
  obtain ⟨tokens, last, scanned, taken, closed, same⟩ :=
    foldlM_alternatives parts readable some []
  rw [read, scanned]
  change (do (← tokens.foldlM Reading.step ⟨⟨[], []⟩, []⟩).finish) = _
  rw [taken]
  change last.finish = _
  rw [Reading.finish, closed, same]
  rfl

end Reading

end IgnoreRules.Regex
