import IgnoreRules.Files.Standard
import IgnoreRules.Proofs.Files.Walks
import IgnoreRules.Proofs.Scan.Failing

/-!
# Listing a directory

Listing a directory returns the listing of the part that a walk comes to of the tree that its path
leads to. It holds each file in this part once and nothing else, and on request each directory too,
right before what it holds. The part is the whole tree unless the path of a directory in it is too
long, and then the listing does not say that something is missing.
-/

namespace IgnoreRules

open Files (Node)
open Files.Node (Below Holds Opens Proper Shallow listed)

/-- A listing of what is below a node. It starts with the node itself, and then come the places
below it, each once and in their order. What is listed of a directory stands together: on request
its path, and then its own listing with its path in front. -/
structure ListsTree (node : Node) (withDirectories : Bool) (entries : List String) : Prop where
  ordered : ∃ places : List (List String), entries = "/" :: places.map Files.placePath ∧
    places.Pairwise Files.Before ∧ ∀ place, place ∈ places ↔ node.Holds withDirectories place
  once : entries.Nodup
  together : ∀ names inner, node.Below names (.directory inner) → ∃ before after,
    entries = before ++ (if withDirectories then [Files.placePath names ++ "/"] else []) ++
        ((Node.directory inner).listing withDirectories).tail.map
          (Files.placePath names ++ "/" ++ ·) ++ after ∧
      ∀ entry ∈ before ++ after, ¬(Files.placePath names ++ "/").toList <+: entry.toList

theorem listed_eq (withDirectories : Bool) (path : String) (node : Node) (proper : node.Proper) :
    listed withDirectories path node = (if withDirectories then [path] else []) ++
      (node.listing withDirectories).tail.map (path ++ ·) := by
  obtain ⟨places, lists⟩ := node.lists_places withDirectories proper
  simp [listed, Node.listing, lists.paths, Function.comp_def]

theorem listing_listsTree (withDirectories : Bool) (node : Node) (proper : node.Proper) :
    ListsTree node withDirectories (node.listing withDirectories) where
  ordered := by
    obtain ⟨places, lists⟩ := node.lists_places withDirectories proper
    refine ⟨places, ?_, lists.ordered, lists.complete⟩
    simp [Node.listing, lists.paths]
  once := node.nodup_listing withDirectories proper
  together := by
    intro names inner below
    obtain ⟨before, after, split, outside⟩ :=
      node.pathsBelow_block withDirectories _ names below rfl proper ""
    rw [String.empty_append] at split outside
    refine ⟨"/" :: before, after, ?_, ?_⟩
    · rw [Node.listing, split, listed_eq _ _ _ (below.proper proper)]
      simp
    · intro entry found inside
      -- The entry in front of all others is the root, whose path is too short.
      rcases List.mem_cons.mp found with rfl | found
      · have shorter := inside.length_le
        simp [below.path_ne_empty proper] at shorter
      · exact outside entry found inside

theorem directory?_eq_some_iff (files : Files.FileSystem) (path : Files.Path) (node : Node) :
    files.directory? path = some node ↔
      ∃ entries, node = .directory entries ∧ files.lookup path = .ok (.directory entries) := by
  unfold Files.FileSystem.directory?
  split
  next entries found => simp [eq_comm, found]
  next unlike =>
    simp only [reduceCtorEq, false_iff, not_exists, not_and]
    rintro entries rfl found
    exact unlike entries found

/-- A session once a listing has been announced in it. -/
def Session.listing (session : Session) (path : Files.Path) (entries : List String) : Session :=
  session.log ⟨.debug, "Listed directory",
    [("directory", .text path.toText), ("entries", .int entries.length)]⟩

section

variable (session : Session) (written : String) (withDirectories : Bool)
  (entries : List (String × Node))
  (found : session.files.lookup (.ofText written) = .ok (.directory entries))
include found

theorem isDirectory_of_lookup : session.files.isDirectory (.ofText written) = .ok true := by
  simp [Files.FileSystem.isDirectory, Files.FileSystem.leadsTo, found, Node.isDirectory]

theorem directory?_of_lookup :
    session.files.directory? (.ofText written) = some (.directory entries) := by
  rw [directory?_eq_some_iff]
  exact ⟨entries, rfl, found⟩

variable [Files.WalkLimit]

theorem returns_listFiles
    (shallow : Shallow (Files.Path.ofText written).leadLength (.directory entries)) :
    let listed := ((Node.directory entries).walked (Files.Path.ofText written).leadLength).listing
      withDirectories
    Returns (listFiles written withDirectories) session listed
      (session.listing (.ofText written) listed) := by
  have isDirectory := isDirectory_of_lookup session written entries found
  have directory := directory?_of_lookup session written entries found
  have permitted := (Node.permits_walkDepth_iff _ entries).mpr shallow
  simp only [listFiles, Failure.ofFile, returns_bind_iff, returns_files_iff, returns_lift_iff,
    mapError_eq_ok_iff]
  refine ⟨session.files, session, ⟨rfl, rfl⟩, true, session, ⟨isDirectory, rfl⟩, ?_⟩
  simp only [directory, permitted, Bool.not_true, Bool.false_eq_true, if_false]
  exact (returns_log _ _ _ session).bind (returns_pure _ _)

theorem fails_listFiles_of_deep
    (deep : ¬Shallow (Files.Path.ofText written).leadLength (.directory entries)) :
    Fails (listFiles written withDirectories) session .tooDeep := by
  have isDirectory := isDirectory_of_lookup session written entries found
  have directory := directory?_of_lookup session written entries found
  have refused : Files.WalkLimit.permits ((Node.directory entries).walkDepth
      (Files.Path.ofText written).leadLength) = false := by
    rw [← Bool.not_eq_true, Node.permits_walkDepth_iff]
    exact deep
  simp only [listFiles, Failure.ofFile, fails_bind_iff, returns_files_iff, fails_lift_iff,
    mapError_eq_error_iff, returns_lift_iff, mapError_eq_ok_iff]
  refine .inr ⟨session.files, session, ⟨rfl, rfl⟩, .inr ⟨true, session, ⟨isDirectory, rfl⟩, ?_⟩⟩
  simp only [directory, refused, Bool.not_false, if_true]
  exact (fails_throw_iff session _ _).mpr rfl

/-- The path of a directory leads to a tree, and listing it returns the listing of what a walk comes
to, without its directories or with them. Without the paths of directories the one listing is the
other. A walk comes to what is in the directories whose path is not too long, so if there are no
others, it comes to the whole tree. If a directory lies too deep for the walk, nothing is returned.
-/
theorem listFiles_outcome (proper : (Node.directory entries).Proper) :
    let lead := (Files.Path.ofText written).leadLength
    let walked := (Node.directory entries).walked lead
    (Shallow lead (.directory entries) → ∃ files all filesAfter allAfter,
      Returns (listFiles written false) session files filesAfter ∧
      Returns (listFiles written true) session all allAfter ∧
      ListsTree walked false files ∧ ListsTree walked true all ∧
      all.filter (!Files.isSubdirectory ·) = files) ∧
    (¬Shallow lead (.directory entries) →
      ∀ withDirectories, Fails (listFiles written withDirectories) session .tooDeep) ∧
    (∀ withDirectories place, walked.Holds withDirectories place ↔
      (Node.directory entries).Holds withDirectories place ∧ Opens lead place.dropLast) ∧
    ((∀ names inner, (Node.directory entries).Below names (.directory inner) → Opens lead names) →
      walked = .directory entries) := by
  intro lead walked
  have properWalk : walked.Proper := proper.walked lead
  refine ⟨fun shallow => ?_, fun deep withDirectories => ?_, ?_, ?_⟩
  · exact ⟨_, _, _, _, returns_listFiles session written false entries found shallow,
      returns_listFiles session written true entries found shallow,
      listing_listsTree false _ properWalk, listing_listsTree true _ properWalk,
      Node.filter_listing _ properWalk⟩
  · exact fails_listFiles_of_deep session written withDirectories entries found deep
  · exact Node.holds_walked_iff lead _
  · exact Node.walked_eq_self lead _ proper

end

/-- Names that begin other names, a directory without entries, one in another, and a pipe. -/
theorem listFiles_outcome_nested :
    let entries : List (String × Node) := [("b", .special), ("a.b", .directory []),
      ("a", .directory [("c", .file .empty), ("b", .directory [])]), ("a-", .file .empty)]
    let session := Session.start ⟨.directory [("d", .directory entries)], [], "/", []⟩
      (.standard "ignoreparser") ""
    (∃ after, Returns (listFiles "d/../d" true) session
      ["/", "a-", "b", "a/", "a/c", "a/b/", "a.b/"] after) ∧
      ListsTree (.directory entries) true ["/", "a-", "b", "a/", "a/c", "a/b/", "a.b/"] := by
  intro entries session
  have named (name : String) (filled : name ≠ "") (whole : '/' ∉ name.toList) :
      Files.IsName name := ⟨filled, whole⟩
  have empty : (Node.directory []).Proper := .directory (by decide) (by simp) (by simp)
  have inner : (Node.directory [("c", .file .empty), ("b", .directory [])]).Proper :=
    .directory (by decide)
      (by simpa using ⟨named "c" (by decide) (by decide), named "b" (by decide) (by decide)⟩)
      (by simpa using ⟨.file _, empty⟩)
  have proper : (Node.directory entries).Proper :=
    .directory (by decide)
      (by simpa [entries] using ⟨named "b" (by decide) (by decide),
        named "a.b" (by decide) (by decide), named "a" (by decide) (by decide),
        named "a-" (by decide) (by decide)⟩)
      (by simpa [entries] using ⟨.special, empty, inner, .file _⟩)
  have found : session.files.lookup (.ofText "d/../d") = .ok (.directory entries) := rfl
  have whole : (Node.directory entries).walked (Files.Path.ofText "d/../d").leadLength =
      .directory entries := by
    rfl
  have shallow : Shallow (Files.Path.ofText "d/../d").leadLength (.directory entries) :=
    (Node.permits_walkDepth_iff _ entries).mp (by decide +kernel)
  obtain ⟨lists, _⟩ := listFiles_outcome session "d/../d" entries found proper
  obtain ⟨files, all, _, after, _, returned, _, complete, _⟩ := lists shallow
  have listed := returns_listFiles session "d/../d" true entries found shallow
  have paths : (Node.directory entries).listing true =
      ["/", "a-", "b", "a/", "a/c", "a/b/", "a.b/"] := by
    simp [entries, Node.listing, Node.pathsBelow, Node.directoriesBelow, Node.fileNames,
      Files.sortByName, Node.isDirectory, List.mergeSort, Text.precedes]
  rw [whole, paths] at listed
  rw [whole] at complete
  obtain ⟨same, _⟩ := Prod.mk.inj (listed.symm.trans returned)
  obtain rfl := Except.ok.inj same
  exact ⟨⟨_, listed⟩, complete⟩

/-- Directories of one name in one another, with a file in the innermost. -/
def nest (name : String) : Nat → Node
  | 0 => .directory [("f", .file .empty)]
  | depth + 1 => .directory [(name, nest name depth)]

theorem below_nest (name : String) (depth : Nat) :
    (nest name depth).Below (List.replicate depth name ++ ["f"]) (.file .empty) := by
  induction depth with
  | zero => exact .entry List.mem_cons_self
  | succ depth ih => exact .deeper List.mem_cons_self ih

theorem length_below_nest (name : String) (depth : Nat) (names : List String)
    (inner : List (String × Node)) (below : (nest name depth).Below names (.directory inner)) :
    names.length ≤ depth := by
  induction depth generalizing names with
  | zero =>
    cases below with
    | entry member => simp at member
    | deeper member below =>
      obtain ⟨_, rfl⟩ := below.directory
      simp at member
  | succ depth ih =>
    cases below with
    | entry _ => simp
    | deeper member below =>
      obtain ⟨rfl, rfl⟩ : _ = name ∧ _ = nest name depth := by simpa using member
      exact Nat.succ_le_succ (ih _ below)

theorem proper_nest (name : String) (named : Files.IsName name) (depth : Nat) :
    (nest name depth).Proper := by
  induction depth with
  | zero =>
    refine .directory (by simp) ?_ ?_
    · simpa using (⟨by decide, by decide⟩ : Files.IsName "f")
    · simpa using .file _
  | succ depth ih => exact .directory (by simp) (by simpa using named) (by simpa using ih)

theorem length_of_opens (lead : Nat) (name : String) (depth : Nat)
    (opens : Opens lead (List.replicate (depth + 1) name)) :
    lead + depth * (name.utf8ByteSize + 1) + name.utf8ByteSize ≤ Files.maxPathLength := by
  induction depth generalizing lead with
  | zero => simpa using ((Node.opens_cons lead name []).mp opens).1
  | succ depth ih =>
    have inside := ih _ ((Node.opens_cons lead name _).mp opens).2
    rw [Nat.succ_mul]
    omega

/-- The innermost of seventeen directories with long names holds a file that is not listed. -/
theorem listFiles_outcome_tooLong :
    let name := String.ofList (List.replicate 250 'a')
    let place := List.replicate 17 name ++ ["f"]
    let session := Session.start ⟨.directory [("d", nest name 17)], [], "/", []⟩
      (.standard "ignoreparser") ""
    (nest name 17).Below place (.file .empty) ∧
      ∃ files after, Returns (listFiles "d" false) session files after ∧
        Files.placePath place ∉ files := by
  intro name place session
  have size : name.utf8ByteSize = 250 := by decide +kernel
  have named : Files.IsName name := by
    refine ⟨by decide +kernel, fun member => ?_⟩
    rw [String.toList_ofList] at member
    cases List.eq_of_mem_replicate member
  have below : (nest name 17).Below place (.file .empty) := below_nest name 17
  have proper := proper_nest name named 17
  have shallow : Shallow (Files.Path.ofText "d").leadLength (nest name 17) := by
    rintro limit ⟨⟩
    refine ⟨by decide, fun names inner found _ => ?_⟩
    exact Nat.lt_of_le_of_lt (length_below_nest name 17 names inner found) (by decide)
  obtain ⟨lists, _, reached, _⟩ := listFiles_outcome session "d" [(name, nest name 16)] rfl proper
  obtain ⟨files, _, after, _, returned, _, complete, _⟩ := lists shallow
  refine ⟨below, files, after, returned, fun listed => ?_⟩
  obtain ⟨places, rfl, _, holds⟩ := complete.ordered
  have whole : ∀ name ∈ place, '/' ∉ name.toList :=
    fun name member => (below.named proper name member).whole
  rcases List.mem_cons.mp listed with root | listed
  · exact (Holds.file rfl below : (nest name 17).Holds false place).path_ne_root proper root
  obtain ⟨other, member, same⟩ := List.mem_map.mp listed
  have held := (holds other).mp member
  obtain ⟨heldToo, opens⟩ := (reached false other).mp held
  -- Different places have different paths, so it would have to be the place itself.
  obtain rfl := Files.placePath_inj other place held.nonempty (by simp [place])
    (heldToo.whole proper) whole same
  have long := length_of_opens _ name 16 (by simpa [place] using opens)
  simp [size, Files.maxPathLength] at long

end IgnoreRules
