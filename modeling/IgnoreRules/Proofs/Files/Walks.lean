import IgnoreRules.Proofs.Files.Listing

/-!
# What a walk comes to

A walk opens each directory by the path on which it has come to it, and it passes over a directory
whose path is too long. Paths grow on the way down, so what is in a directory is found if the path
of this one is not too long. A walk fails if one of the directories that it tries to open lies too
deep.
-/

namespace IgnoreRules.Files.Node

/-- A walk can open the directory at a place: the one it starts in, or one whose path is not too
long. -/
def Opens (lead : Nat) (names : List String) : Prop :=
  names ≠ [] → lead + (placePath names).utf8ByteSize ≤ maxPathLength

/-- No directory that a walk tries to open lies too deep for it. -/
def Shallow [WalkLimit] (lead : Nat) (node : Node) : Prop :=
  ∀ limit, WalkLimit.depth? = some limit → 0 < limit ∧ ∀ names inner,
    node.Below names (.directory inner) → Opens lead names.dropLast → names.length < limit

theorem opens_cons (lead : Nat) (name : String) (names : List String) :
    Opens lead (name :: names) ↔ lead + name.utf8ByteSize ≤ maxPathLength ∧
      Opens (lead + name.utf8ByteSize + 1) names := by
  unfold Opens
  by_cases last : names = []
  · simp [last, placePath]
  · have size : (placePath (name :: names)).utf8ByteSize =
        name.utf8ByteSize + 1 + (placePath names).utf8ByteSize := by
      rw [placePath_cons name names last, String.utf8ByteSize_append, String.utf8ByteSize_append]
      rfl
    simp only [ne_eq, reduceCtorEq, not_false_eq_true, forall_const, last, size]
    omega

/-! ## One directory -/

theorem isPassedOver_eq_false_iff (node : Node) (length : Nat) :
    node.isPassedOver length = false ↔ (node.isDirectory = true → length ≤ maxPathLength) := by
  cases directory : node.isDirectory <;> simp [isPassedOver, directory]

theorem isDirectory_walked (lead : Nat) (node : Node) :
    (node.walked lead).isDirectory = node.isDirectory := by
  cases node <;> simp [walked, isDirectory]

theorem mem_walkedEntries_iff (lead : Nat) (entries : List (String × Node)) (name : String)
    (child : Node) :
    (name, child) ∈ walkedEntries lead entries ↔ ∃ whole, (name, whole) ∈ entries ∧
      whole.isPassedOver (lead + name.utf8ByteSize) = false ∧
      whole.walked (lead + name.utf8ByteSize + 1) = child := by
  induction entries with
  | nil => simp [walkedEntries]
  | cons entry entries ih =>
    obtain ⟨first, node⟩ := entry
    simp only [walkedEntries]
    split
    next passed =>
      rw [ih]
      constructor
      · rintro ⟨whole, member, found⟩
        exact ⟨whole, List.mem_cons_of_mem _ member, found⟩
      · rintro ⟨whole, member, kept, same⟩
        rcases List.mem_cons.mp member with first | member
        · cases first
          simp [passed] at kept
        · exact ⟨whole, member, kept, same⟩
    next kept =>
      rw [List.mem_cons, ih]
      constructor
      · rintro (first | ⟨whole, member, found⟩)
        · cases first
          exact ⟨node, List.mem_cons_self, by simpa using kept, rfl⟩
        · exact ⟨whole, List.mem_cons_of_mem _ member, found⟩
      · rintro ⟨whole, member, found, same⟩
        rcases List.mem_cons.mp member with first | member
        · cases first
          exact .inl (by rw [same])
        · exact .inr ⟨whole, member, found, same⟩

theorem names_walkedEntries (lead : Nat) (entries : List (String × Node)) :
    List.Sublist ((walkedEntries lead entries).map (·.1)) (entries.map (·.1)) := by
  induction entries with
  | nil => exact .slnil
  | cons entry entries ih =>
    obtain ⟨name, node⟩ := entry
    simp only [walkedEntries]
    split
    · exact ih.cons _
    · exact ih.cons_cons _

/-! ## Whole walks -/

theorem Proper.walked {node : Node} (proper : node.Proper) (lead : Nat) :
    (node.walked lead).Proper := by
  induction proper generalizing lead with
  | file content => exact .file content
  | special => exact .special
  | @directory entries distinct named children ih =>
    have whole (entry : String × Node) (member : entry ∈ walkedEntries lead entries) :
        IsName entry.1 ∧ entry.2.Proper := by
      obtain ⟨name, child⟩ := entry
      obtain ⟨whole, here, _, rfl⟩ := (mem_walkedEntries_iff lead entries name child).mp member
      exact ⟨named (name, whole) here, ih (name, whole) here _⟩
    exact .directory (distinct.sublist (names_walkedEntries lead entries))
      (fun entry member => (whole entry member).1) (fun entry member => (whole entry member).2)

/-- A walk comes to what is in the directories that it opens. -/
theorem holds_walked_iff (lead : Nat) (node : Node) (withDirectories : Bool)
    (place : List String) :
    (node.walked lead).Holds withDirectories place ↔
      node.Holds withDirectories place ∧ Opens lead place.dropLast := by
  -- A place starts with an entry of the directory and goes on from there.
  induction place generalizing lead node with
  | nil =>
    constructor
    · intro held
      exact absurd rfl held.nonempty
    · rintro ⟨held, _⟩
      exact absurd rfl held.nonempty
  | cons name rest ih =>
    cases node with
    | file content => simp [walked, not_holds_of_leaf (rfl : (file content).isDirectory = false)]
    | special => simp [walked, not_holds_of_leaf (rfl : special.isDirectory = false)]
    | directory entries =>
      rw [walked, holds_directory_iff, holds_directory_iff]
      constructor
      · rintro (⟨_, leaf, member, isLeaf, ⟨⟩⟩ | ⟨_, inner, _, member, ⟨⟩, inside⟩)
        · obtain ⟨whole, here, _, rfl⟩ := (mem_walkedEntries_iff ..).mp member
          rw [isDirectory_walked] at isLeaf
          exact ⟨.inl ⟨name, whole, here, isLeaf, rfl⟩, fun beyond => absurd rfl beyond⟩
        · obtain ⟨whole, here, kept, same⟩ := (mem_walkedEntries_iff ..).mp member
          -- Only a directory is walked to a directory, and one that is not passed over is opened.
          cases whole with
          | file content => simp [walked] at same
          | special => simp [walked] at same
          | directory entries =>
            have short := (isPassedOver_eq_false_iff _ _).mp kept rfl
            rcases inside with ⟨asked, rfl⟩ | held
            · refine ⟨.inr ⟨name, entries, _, here, rfl, .inl ⟨asked, rfl⟩⟩, ?_⟩
              exact (opens_cons lead name []).mpr ⟨short, fun beyond => absurd rfl beyond⟩
            · rw [← same] at held
              obtain ⟨whole, opens⟩ := (ih _ _).mp held
              refine ⟨.inr ⟨name, entries, rest, here, rfl, .inr whole⟩, ?_⟩
              rw [List.dropLast_cons_of_ne_nil whole.nonempty, opens_cons]
              exact ⟨short, opens⟩
      · rintro ⟨⟨_, leaf, here, isLeaf, ⟨⟩⟩ | ⟨_, inner, _, here, ⟨⟩, inside⟩, opens⟩
        · refine .inl ⟨name, _, (mem_walkedEntries_iff ..).mpr ⟨leaf, here, ?_, rfl⟩, ?_, rfl⟩
          · simp [isPassedOver, isLeaf]
          · rw [isDirectory_walked, isLeaf]
        · have filled : rest ≠ [] := by
            rcases inside with ⟨_, rfl⟩ | held
            · simp
            · exact held.nonempty
          rw [List.dropLast_cons_of_ne_nil filled, opens_cons] at opens
          have kept := (isPassedOver_eq_false_iff (.directory inner) _).mpr fun _ => opens.1
          refine .inr ⟨name, _, rest, (mem_walkedEntries_iff ..).mpr ⟨_, here, kept, rfl⟩, rfl, ?_⟩
          rcases inside with own | held
          · exact .inl own
          · exact .inr ((ih _ (.directory inner)).mpr ⟨held, opens.2⟩)

/-- If no path is too long, a walk comes to everything. -/
theorem walked_eq_self (lead : Nat) (node : Node) (proper : node.Proper)
    (opens : ∀ names inner, node.Below names (.directory inner) → Opens lead names) :
    node.walked lead = node := by
  induction proper generalizing lead with
  | file content => rfl
  | special => rfl
  | @directory entries distinct named children ih =>
    have whole (rest : List (String × Node)) (among : ∀ entry ∈ rest, entry ∈ entries) :
        walkedEntries lead rest = rest := by
      induction rest with
      | nil => rfl
      | cons entry rest ihRest =>
        obtain ⟨name, child⟩ := entry
        have here := among _ List.mem_cons_self
        have kept : child.isPassedOver (lead + name.utf8ByteSize) = false := by
          rw [isPassedOver_eq_false_iff]
          intro directory
          cases child with
          | directory inner => exact ((opens_cons lead name []).mp (opens _ _ (.entry here))).1
          | _ => cases directory
        have same : child.walked (lead + name.utf8ByteSize + 1) = child := by
          refine ih _ here _ fun names inner below => ?_
          exact ((opens_cons lead name names).mp (opens _ _ (.deeper here below))).2
        simp only [walkedEntries, kept, Bool.false_eq_true, if_false, same,
          ihRest fun entry member => among entry (List.mem_cons_of_mem _ member)]
    rw [walked, whole entries fun _ member => member]

/-! ## Depth -/

theorem entryDepth_le_iff (lead : Nat) (entries : List (String × Node)) (limit : Nat) :
    entryDepth lead entries ≤ limit ↔ ∀ entry ∈ entries,
      (if entry.2.isPassedOver (lead + entry.1.utf8ByteSize) then 1
        else entry.2.walkDepth (lead + entry.1.utf8ByteSize + 1)) ≤ limit := by
  induction entries with
  | nil => simp [entryDepth]
  | cons entry entries ih =>
    obtain ⟨name, node⟩ := entry
    rw [entryDepth, Nat.max_le, ih, List.forall_mem_cons]

/-- The directories that a walk has open at once are those on the way to the deepest one that it
tries to open. -/
theorem walkDepth_le_iff (lead : Nat) (entries : List (String × Node)) (limit : Nat) :
    (Node.directory entries).walkDepth lead ≤ limit ↔ 0 < limit ∧ ∀ names inner,
      (Node.directory entries).Below names (.directory inner) → Opens lead names.dropLast →
        names.length < limit := by
  -- Going one directory down takes one off the limit.
  induction limit generalizing lead entries with
  | zero => simp [walkDepth]
  | succ limit ih =>
    rw [walkDepth, Nat.add_le_add_iff_right, entryDepth_le_iff]
    constructor
    · intro bounded
      refine ⟨Nat.succ_pos _, fun names inner below opens => ?_⟩
      cases below with
      | entry member =>
        have here := bounded _ member
        -- One directory is open while the walk tries this one, whether or not it can be opened.
        simp only [walkDepth] at here
        simp only [List.length_singleton]
        split at here <;> omega
      | @deeper _ name child _ rest member below =>
        obtain ⟨entries, rfl⟩ := below.directory
        rw [List.dropLast_cons_of_ne_nil below.nonempty, opens_cons] at opens
        have kept := (isPassedOver_eq_false_iff (.directory entries) _).mpr fun _ => opens.1
        have here := bounded _ member
        simp only [kept, Bool.false_eq_true, if_false] at here
        rw [List.length_cons]
        exact Nat.succ_lt_succ (((ih _ entries).mp here).2 rest inner below opens.2)
    · rintro ⟨_, bounded⟩ ⟨name, child⟩ member
      cases child with
      | file content => simp [isPassedOver, isDirectory, walkDepth]
      | special => simp [isPassedOver, isDirectory, walkDepth]
      | directory inner =>
        have start := bounded [name] inner (.entry member) fun beyond => absurd rfl beyond
        simp only [List.length_singleton, Nat.lt_add_left_iff_pos] at start
        split
        · exact start
        next kept =>
          have short := (isPassedOver_eq_false_iff _ _).mp (by simpa using kept) rfl
          refine (ih _ inner).mpr ⟨start, fun names target below opens => ?_⟩
          have further := bounded (name :: names) target (.deeper member below) (by
            rw [List.dropLast_cons_of_ne_nil below.nonempty, opens_cons]
            exact ⟨short, opens⟩)
          exact Nat.lt_of_succ_lt_succ further

theorem permits_walkDepth_iff [WalkLimit] (lead : Nat) (entries : List (String × Node)) :
    WalkLimit.permits ((Node.directory entries).walkDepth lead) = true ↔
      Shallow lead (.directory entries) := by
  unfold WalkLimit.permits Shallow
  cases limit : WalkLimit.depth? with
  | none => simp
  | some limit => simp [walkDepth_le_iff]

end IgnoreRules.Files.Node
