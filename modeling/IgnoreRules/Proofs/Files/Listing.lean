import IgnoreRules.Files.Listing
import IgnoreRules.Proofs.Glob.Path
import Mathlib.Data.List.Basic

/-!
# What a listing holds

A listing names what is below a directory by places: the names on the way to a file, or those on the
way to a directory with an empty name behind them, as if the directory held a file without a name.
In this form the order of a listing is that of the places: where two of them part, what is in the
directory itself comes before what is below one that it holds, and otherwise the smaller name comes
first. Each place of the tree is listed once, and nothing else is. What is below a directory stands
together in its listing, as the listing of that directory by itself.
-/

namespace IgnoreRules.Files

/-- Text that can name an entry of a directory. -/
structure IsName (name : String) : Prop where
  nonempty : name ≠ ""
  whole : '/' ∉ name.toList

/-- The path of a place from the directory that is listed. -/
def placePath (place : List String) : String := "/".intercalate place

/-- The order in which a directory lists what is below it. -/
inductive Before : List String → List String → Prop
  | file {name other : String} (smaller : name < other) : Before [name] [other]
  | fileFirst {name directory : String} {place : List String} (inside : place ≠ []) :
      Before [name] (directory :: place)
  | directory {name other : String} {place another : List String} (inside : place ≠ [])
      (insideToo : another ≠ []) (smaller : name < other) :
      Before (name :: place) (other :: another)
  | within {directory : String} {place another : List String} (inside : Before place another) :
      Before (directory :: place) (directory :: another)

/-- An entry of a listing is the path of a directory below the one that is listed. -/
def isSubdirectory (entry : String) : Bool := entry ≠ "/" && entry.toList.getLast? = some '/'

theorem Before.ne {place another : List String} (before : Before place another) :
    place ≠ another := by
  have apart (name other : String) (smaller : name < other) : name ≠ other := by
    rintro rfl
    exact String.lt_irrefl name smaller
  induction before with
  | file smaller => simpa using apart _ _ smaller
  | fileFirst inside => simpa using fun _ => Ne.symm inside
  | directory _ _ smaller => simpa using fun same => absurd same (apart _ _ smaller)
  | within _ ih => simpa using ih

/-- Names without separators can be read off their path. -/
theorem placePath_inj (place another : List String) (inside : place ≠ []) (insideToo : another ≠ [])
    (whole : ∀ name ∈ place, '/' ∉ name.toList) (wholeToo : ∀ name ∈ another, '/' ∉ name.toList)
    (same : placePath place = placePath another) : place = another := by
  have split (names : List String) (inside : names ≠ [])
      (whole : ∀ name ∈ names, '/' ∉ name.toList) :
      (placePath names).toList.splitOn '/' = names.map String.toList := by
    rw [placePath, String.toList_intercalate]
    exact List.splitOn_intercalate '/' (by simpa using whole) (by simpa using inside)
  have texts : place.map String.toList = another.map String.toList := by
    rw [← split place inside whole, ← split another insideToo wholeToo, same]
  exact List.map_injective_iff.mpr (fun _ _ => String.toList_inj.mp) texts

namespace Node

/-- A directory gives its entries different names, and so does every directory below it. -/
inductive Proper : Node → Prop
  | file (content : ByteArray) : Proper (.file content)
  | special : Proper .special
  | directory {entries : List (String × Node)} (distinct : (entries.map (·.1)).Nodup)
      (named : ∀ entry ∈ entries, IsName entry.1) (children : ∀ entry ∈ entries, Proper entry.2) :
      Proper (.directory entries)

/-- Names lead from a directory to what is below it. -/
inductive Below : Node → List String → Node → Prop
  | entry {entries : List (String × Node)} {name : String} {child : Node}
      (member : (name, child) ∈ entries) : Below (.directory entries) [name] child
  | deeper {entries : List (String × Node)} {name : String} {child target : Node}
      {names : List String} (member : (name, child) ∈ entries) (below : Below child names target) :
      Below (.directory entries) (name :: names) target

/-- The places below a node: its files, and on request its directories. What is no directory
counts as a file. -/
inductive Holds (node : Node) (withDirectories : Bool) : List String → Prop
  | file {names : List String} {target : Node} (leaf : target.isDirectory = false)
      (below : node.Below names target) : Holds node withDirectories names
  | directory {names : List String} {entries : List (String × Node)}
      (asked : withDirectories = true) (below : node.Below names (.directory entries)) :
      Holds node withDirectories (names ++ [""])

/-! ## One directory -/

/-- The directories among the entries of one, in the order of their names. -/
def subdirectories (entries : List (String × Node)) : List (String × Node) :=
  sortByName (entries.filter (·.2.isDirectory))

/-- What a listing says of a directory: on request its path, and then what is below it. -/
def listed (withDirectories : Bool) (path : String) (node : Node) : List String :=
  (if withDirectories then [path] else []) ++ node.pathsBelow withDirectories path

theorem directoriesBelow_eq (withDirectories : Bool) (path : String)
    (entries : List (String × Node)) :
    directoriesBelow withDirectories path entries =
      (entries.filter (·.2.isDirectory)).map fun entry =>
        (entry.1, listed withDirectories (path ++ entry.1 ++ "/") entry.2) := by
  induction entries with
  | nil => rfl
  | cons entry entries ih =>
    obtain ⟨name, node⟩ := entry
    cases isDirectory : node.isDirectory with
    | true => cases withDirectories <;> simp [directoriesBelow, isDirectory, ih, listed]
    | false => simp [directoriesBelow, isDirectory, ih]

/-- A directory lists its files and then, one after the other, its directories. -/
theorem pathsBelow_directory (withDirectories : Bool) (path : String)
    (entries : List (String × Node)) :
    pathsBelow withDirectories path (.directory entries) =
      (fileNames entries).map (path ++ ·) ++ (subdirectories entries).flatMap fun entry =>
        listed withDirectories (path ++ entry.1 ++ "/") entry.2 := by
  have sorted : sortByName (directoriesBelow withDirectories path entries) =
      (subdirectories entries).map fun entry =>
        (entry.1, listed withDirectories (path ++ entry.1 ++ "/") entry.2) := by
    rw [directoriesBelow_eq, sortByName, subdirectories, sortByName, List.map_mergeSort]
    simp
  rw [pathsBelow, sorted, List.flatMap_map]

theorem mem_fileNames (entries : List (String × Node)) (name : String) :
    name ∈ fileNames entries ↔ ∃ leaf, (name, leaf) ∈ entries ∧ leaf.isDirectory = false := by
  simp [fileNames, sortByName]

theorem mem_subdirectories (entries : List (String × Node)) (name : String) (child : Node) :
    (name, child) ∈ subdirectories entries ↔
      (name, child) ∈ entries ∧ ∃ inner, child = .directory inner := by
  simp only [subdirectories, sortByName, List.mem_mergeSort, List.mem_filter]
  cases child <;> simp [isDirectory]

/-! ## The order of names -/

theorem lt_of_precedes (first second : List Char) (before : Text.precedes first second = true)
    (different : first ≠ second) : first < second := by
  induction first generalizing second with
  | nil =>
    cases second with
    | nil => exact absurd rfl different
    | cons => exact List.nil_lt_cons _ _
  | cons a first ih =>
    cases second with
    | nil => cases before
    | cons b second =>
      simp only [Text.precedes] at before
      rw [List.cons_lt_cons_iff]
      split at before
      next same =>
        obtain rfl := Char.toNat_inj.mp same
        exact .inr ⟨rfl, ih second before (by simpa using different)⟩
      next =>
        rw [decide_eq_true_eq] at before
        exact .inl (Char.lt_def.mpr (UInt32.lt_iff_toNat_lt.mpr before))

/-- Sorted entries with different names have ascending ones. -/
theorem sortByName_ascending (entries : List (String × Node))
    (distinct : (entries.map (·.1)).Nodup) :
    (sortByName entries).Pairwise fun left right => left.1 < right.1 := by
  have sorted : (sortByName entries).Pairwise fun left right =>
      Text.precedes left.1.toList right.1.toList :=
    List.pairwise_mergeSort
      (fun first second third =>
        Text.precedes_trans first.1.toList second.1.toList third.1.toList)
      (fun first second => Text.precedes_total first.1.toList second.1.toList) entries
  have apart : (sortByName entries).Pairwise fun left right => left.1 ≠ right.1 := by
    rw [← List.pairwise_map]
    exact ((List.mergeSort_perm entries _).map (·.1)).nodup_iff.mpr distinct
  refine (sorted.and apart).imp fun {left right} both => ?_
  rw [String.lt_iff]
  exact lt_of_precedes _ _ both.1 (mt String.toList_inj.mp both.2)

theorem distinct_filter (entries : List (String × Node)) (test : String × Node → Bool)
    (distinct : (entries.map (·.1)).Nodup) : ((entries.filter test).map (·.1)).Nodup :=
  distinct.sublist (List.filter_sublist.map _)

/-! ## Places -/

/-- A node lists some places, wherever it is. -/
structure Lists (withDirectories : Bool) (node : Node) (places : List (List String)) : Prop where
  paths : ∀ path, node.pathsBelow withDirectories path = places.map (path ++ placePath ·)
  complete : ∀ place, place ∈ places ↔ node.Holds withDirectories place
  ordered : places.Pairwise Before

theorem Below.directory {node target : Node} {names : List String}
    (below : node.Below names target) : ∃ entries, node = .directory entries := by
  cases below <;> exact ⟨_, rfl⟩

theorem Below.nonempty {node target : Node} {names : List String}
    (below : node.Below names target) : names ≠ [] := by
  cases below <;> simp

/-- Only a directory holds anything. -/
theorem not_holds_of_leaf {node : Node} (leaf : node.isDirectory = false) (withDirectories : Bool)
    (place : List String) : ¬node.Holds withDirectories place := by
  intro held
  cases held with
  | file _ below =>
    obtain ⟨_, rfl⟩ := below.directory
    cases leaf
  | directory _ below =>
    obtain ⟨_, rfl⟩ := below.directory
    cases leaf

theorem Holds.nonempty {node : Node} {withDirectories : Bool} {place : List String}
    (held : node.Holds withDirectories place) : place ≠ [] := by
  cases held with
  | file _ below => exact below.nonempty
  | directory asked below => simp

/-- A directory holds its files, and its directories with what these hold. -/
theorem holds_directory_iff (withDirectories : Bool) (entries : List (String × Node))
    (place : List String) :
    (Node.directory entries).Holds withDirectories place ↔
      (∃ name leaf, (name, leaf) ∈ entries ∧ leaf.isDirectory = false ∧ place = [name]) ∨
      ∃ name inner rest, (name, .directory inner) ∈ entries ∧ place = name :: rest ∧
        (withDirectories = true ∧ rest = [""] ∨
          (Node.directory inner).Holds withDirectories rest) := by
  constructor
  · intro held
    cases held with
    | file leaf below =>
      cases below with
      | entry member => exact .inl ⟨_, _, member, leaf, rfl⟩
      -- Nothing is below a file, so a way that goes on goes through a directory.
      | @deeper _ name child _ names member below =>
        obtain ⟨inner, rfl⟩ := below.directory
        exact .inr ⟨name, inner, names, member, rfl, .inr (.file leaf below)⟩
    | directory asked below =>
      cases below with
      | entry member => exact .inr ⟨_, _, _, member, rfl, .inl ⟨asked, rfl⟩⟩
      | @deeper _ name child _ names member below =>
        obtain ⟨inner, rfl⟩ := below.directory
        exact .inr ⟨name, inner, _, member, rfl, .inr (.directory asked below)⟩
  · rintro (⟨name, _, member, leaf, rfl⟩ |
      ⟨name, inner, rest, member, rfl, ⟨asked, rfl⟩ | held⟩)
    · exact .file leaf (.entry member)
    · exact .directory asked (.entry member)
    · cases held with
      | file leaf below => exact .file leaf (.deeper member below)
      | directory asked below => exact .directory asked (.deeper member below)

/-- The own place of a directory comes before all that is inside of it. -/
theorem own_before (withDirectories : Bool) (entries : List (String × Node))
    (named : ∀ entry ∈ entries, IsName entry.1) (place : List String)
    (held : (Node.directory entries).Holds withDirectories place) : Before [""] place := by
  rcases (holds_directory_iff _ _ _).mp held with
    ⟨name, _, member, _, rfl⟩ | ⟨name, inner, rest, member, rfl, inside⟩
  · refine .file (String.lt_iff.mpr ?_)
    cases letters : name.toList with
    | nil => exact absurd (String.toList_eq_nil_iff.mp letters) (named _ member).nonempty
    | cons c letters => exact List.nil_lt_cons _ _
  · refine .fileFirst ?_
    rcases inside with ⟨_, rfl⟩ | held
    · simp
    · exact held.nonempty

theorem placePath_cons (name : String) (place : List String) (inside : place ≠ []) :
    placePath (name :: place) = name ++ "/" ++ placePath place := by
  cases place with
  | nil => exact absurd rfl inside
  | cons next place => simp [placePath]

/-- The places of one directory: its files, and its directories with what is inside of them. -/
def placesIn (withDirectories : Bool) (entries : List (String × Node))
    (inside : String × Node → List (List String)) : List (List String) :=
  (fileNames entries).map (fun name => [name]) ++ (subdirectories entries).flatMap fun entry =>
    ((if withDirectories then [[""]] else []) ++ inside entry).map (entry.1 :: ·)

section
variable (withDirectories : Bool) (entries : List (String × Node))
  (inside : String × Node → List (List String))
  (lists : ∀ entry ∈ entries, Lists withDirectories entry.2 (inside entry))
include lists

theorem paths_placesIn (path : String) :
    pathsBelow withDirectories path (.directory entries) =
      (placesIn withDirectories entries inside).map (path ++ placePath ·) := by
  have each (entry : String × Node) (member : entry ∈ subdirectories entries) :
      listed withDirectories (path ++ entry.1 ++ "/") entry.2 =
        (((if withDirectories then [[""]] else []) ++ inside entry).map (entry.1 :: ·)).map
          (path ++ placePath ·) := by
    have here := ((mem_subdirectories entries entry.1 entry.2).mp member).1
    have inner : (inside entry).map (path ++ entry.1 ++ "/" ++ placePath ·) =
        (inside entry).map fun place => path ++ placePath (entry.1 :: place) := by
      refine List.map_congr_left fun place held => ?_
      rw [placePath_cons _ _ (((lists entry here).complete place).mp held).nonempty]
      simp [String.append_assoc]
    rw [listed, (lists entry here).paths, inner]
    cases withDirectories <;> simp [placePath, String.append_assoc, Function.comp_def]
  rw [pathsBelow_directory, placesIn, List.map_append, List.map_map, List.map_flatMap]
  congr 1
  exact List.flatMap_congr each

theorem mem_placesIn_iff (place : List String) :
    place ∈ placesIn withDirectories entries inside ↔
      (Node.directory entries).Holds withDirectories place := by
  rw [holds_directory_iff]
  simp only [placesIn, List.mem_append, List.mem_map, mem_fileNames, List.mem_flatMap]
  constructor
  · rintro (⟨name, ⟨leaf, member, isLeaf⟩, rfl⟩ | ⟨⟨name, child⟩, member, rest, held, rfl⟩)
    · exact .inl ⟨name, leaf, member, isLeaf, rfl⟩
    · obtain ⟨here, inner, rfl⟩ := (mem_subdirectories _ _ _).mp member
      refine .inr ⟨name, inner, rest, here, rfl, ?_⟩
      rcases held with own | held
      · exact .inl (by simpa using own)
      · exact .inr (((lists _ here).complete rest).mp held)
  · rintro (⟨name, leaf, member, isLeaf, rfl⟩ | ⟨name, inner, rest, here, rfl, held⟩)
    · exact .inl ⟨name, ⟨leaf, member, isLeaf⟩, rfl⟩
    · refine .inr ⟨(name, .directory inner), (mem_subdirectories _ _ _).mpr ⟨here, inner, rfl⟩,
        rest, ?_, rfl⟩
      rcases held with own | held
      · exact .inl (by simpa using own)
      · exact .inr (((lists _ here).complete rest).mpr held)

/-- Files come first, and then the directories with all that is inside of them. -/
theorem ordered_placesIn (distinct : (entries.map (·.1)).Nodup)
    (children : ∀ entry ∈ entries, Proper entry.2) :
    (placesIn withDirectories entries inside).Pairwise Before := by
  have somewhere (entry : String × Node) (member : entry ∈ subdirectories entries)
      (rest : List String)
      (held : rest ∈ (if withDirectories then [[""]] else []) ++ inside entry) : rest ≠ [] := by
    rcases List.mem_append.mp held with own | held
    · cases withDirectories with
      | true => simp [List.mem_singleton.mp own]
      | false => cases own
    · have here := ((mem_subdirectories entries entry.1 entry.2).mp member).1
      exact (((lists entry here).complete rest).mp held).nonempty
  rw [placesIn, List.pairwise_append, List.pairwise_map, List.pairwise_flatMap]
  -- Among the files, within one directory, between two directories, and from files to directories.
  refine ⟨?_, ⟨?_, ?_⟩, ?_⟩
  · exact (List.pairwise_map.mpr (sortByName_ascending _ (distinct_filter entries _ distinct))).imp
      .file
  · intro entry member
    have here := ((mem_subdirectories entries entry.1 entry.2).mp member).1
    obtain ⟨name, child⟩ := entry
    obtain ⟨_, inner, rfl⟩ := (mem_subdirectories entries name child).mp member
    have ordered := (lists _ here).ordered
    rw [List.pairwise_map]
    refine List.Pairwise.imp .within (List.pairwise_append.mpr ⟨?_, ordered, ?_⟩)
    · cases withDirectories <;> simp
    · intro own first place held
      cases withDirectories with
      | false => cases first
      | true =>
        obtain rfl := List.mem_singleton.mp first
        cases children _ here with
        | directory _ named _ =>
          exact own_before _ inner named place (((lists _ here).complete place).mp held)
  · refine (sortByName_ascending _ (distinct_filter entries _ distinct)).imp_of_mem ?_
    intro left right memberLeft memberRight smaller place heldLeft another heldRight
    obtain ⟨rest, held, rfl⟩ := List.mem_map.mp heldLeft
    obtain ⟨more, heldToo, rfl⟩ := List.mem_map.mp heldRight
    exact .directory (somewhere left memberLeft rest held)
      (somewhere right memberRight more heldToo) smaller
  · intro place file another below
    obtain ⟨name, _, rfl⟩ := List.mem_map.mp file
    obtain ⟨entry, member, inner⟩ := List.mem_flatMap.mp below
    obtain ⟨rest, held, rfl⟩ := List.mem_map.mp inner
    exact .fileFirst (somewhere entry member rest held)

end

/-- Every directory lists its places, and so does every file, which has none. -/
theorem lists_places (withDirectories : Bool) (node : Node) (proper : node.Proper) :
    ∃ places, Lists withDirectories node places := by
  have empty (leaf : Node) (isLeaf : leaf.isDirectory = false)
      (silent : ∀ path, leaf.pathsBelow withDirectories path = []) :
      ∃ places, Lists withDirectories leaf places := by
    refine ⟨[], silent, fun place => ?_, .nil⟩
    simp only [List.not_mem_nil, false_iff]
    exact not_holds_of_leaf isLeaf withDirectories place
  induction proper with
  | file content => exact empty _ rfl (fun _ => rfl)
  | special => exact empty _ rfl (fun _ => rfl)
  | @directory entries distinct named children ih =>
    -- The places inside each of the directories are there by induction.
    choose! inside lists using ih
    exact ⟨placesIn withDirectories entries inside,
      paths_placesIn withDirectories entries inside lists,
      mem_placesIn_iff withDirectories entries inside lists,
      ordered_placesIn withDirectories entries inside lists distinct children⟩

/-! ## Each entry once -/

theorem Below.named {node target : Node} {names : List String} (below : node.Below names target)
    (proper : node.Proper) : ∀ name ∈ names, IsName name := by
  induction below with
  | entry member =>
    cases proper with
    | directory _ named _ => simpa using named _ member
  | deeper member _ ih =>
    cases proper with
    | directory _ named children =>
      rw [List.forall_mem_cons]
      exact ⟨named _ member, ih (children _ member)⟩

theorem Below.proper {node target : Node} {names : List String} (below : node.Below names target)
    (proper : node.Proper) : target.Proper := by
  induction below with
  | entry member =>
    cases proper with
    | directory _ _ children => exact children _ member
  | deeper member _ ih =>
    cases proper with
    | directory _ _ children => exact ih (children _ member)

theorem Below.path_ne_empty {node target : Node} {names : List String}
    (below : node.Below names target) (proper : node.Proper) : placePath names ≠ "" := by
  have named := below.named proper
  intro empty
  cases names with
  | nil => cases below
  | cons name names =>
    have letters := congrArg String.length empty
    cases names with
    | nil => simp [placePath, (named name (by simp)).nonempty] at letters
    | cons next names => simp [placePath] at letters

theorem Holds.whole {node : Node} {withDirectories : Bool} {place : List String}
    (held : node.Holds withDirectories place) (proper : node.Proper) :
    ∀ name ∈ place, '/' ∉ name.toList := by
  intro name member
  cases held with
  | file _ below => exact (below.named proper name member).whole
  | directory asked below =>
    rcases List.mem_append.mp member with member | own
    · exact (below.named proper name member).whole
    · simp [List.mem_singleton.mp own]

/-- No place has the path of the directory itself. -/
theorem Holds.path_ne_root {node : Node} {withDirectories : Bool} {place : List String}
    (held : node.Holds withDirectories place) (proper : node.Proper) : placePath place ≠ "/" := by
  intro root
  -- Two empty names would have that path, and a place has at most its last name empty.
  have cut : place = ["", ""] :=
    placePath_inj place ["", ""] held.nonempty (by simp) (held.whole proper) (by simp)
      (root.trans (by decide))
  have unnamed (names : List String) (target : Node) (below : node.Below names target)
      (member : "" ∈ names) : False := (below.named proper "" member).nonempty rfl
  cases held with
  | file _ below => exact unnamed _ _ below (by simp [cut])
  | @directory names _ asked below =>
    obtain ⟨rfl, _⟩ : names = [""] ∧ [""] = [""] := List.append_inj' cut rfl
    exact unnamed _ _ below (by simp)

theorem nodup_listing (withDirectories : Bool) (node : Node) (proper : node.Proper) :
    (node.listing withDirectories).Nodup := by
  obtain ⟨places, lists⟩ := lists_places withDirectories node proper
  rw [listing, lists.paths]
  simp only [String.empty_append, List.nodup_cons, List.mem_map, not_exists, not_and]
  refine ⟨fun place member => ((lists.complete place).mp member).path_ne_root proper, ?_⟩
  rw [List.Nodup, List.pairwise_map]
  -- Places in order are different, and so are their paths.
  refine lists.ordered.imp_of_mem fun {place another} member memberToo before same => before.ne ?_
  have held := (lists.complete place).mp member
  have heldToo := (lists.complete another).mp memberToo
  exact placePath_inj place another held.nonempty heldToo.nonempty (held.whole proper)
    (heldToo.whole proper) same

/-! ## Directories in a listing -/

/-- The path of a file does not end with a separator. -/
theorem isSubdirectory_file (path name : String) (named : IsName name) :
    isSubdirectory (path ++ name) = false := by
  obtain ⟨front, c, spelled⟩ := (List.eq_nil_or_concat name.toList).resolve_left
    (mt String.toList_eq_nil_iff.mp named.nonempty)
  have clean := named.whole
  simp only [spelled, List.concat_eq_append, List.mem_append, List.mem_singleton, not_or] at clean
  have last : (path ++ name).toList.getLast? = some c := by
    simp [spelled]
  simp only [isSubdirectory, last, Option.some.injEq, Ne.symm clean.2, decide_false, Bool.and_false]

theorem isSubdirectory_own (path name : String) (named : IsName name) :
    isSubdirectory (path ++ name ++ "/") = true := by
  have other : path ++ name ++ "/" ≠ "/" := by
    intro same
    have shorter := congrArg String.length same
    simp [named.nonempty] at shorter
  simp [isSubdirectory, other]

/-- A listing without the paths of directories is the listing of the files. -/
theorem filter_pathsBelow (node : Node) (proper : node.Proper) (path : String) :
    (node.pathsBelow true path).filter (!isSubdirectory ·) = node.pathsBelow false path := by
  induction proper generalizing path with
  | file content => rfl
  | special => rfl
  | @directory entries _ named children ih =>
    have files : ((fileNames entries).map (path ++ ·)).filter (!isSubdirectory ·) =
        (fileNames entries).map (path ++ ·) := by
      rw [List.filter_eq_self]
      intro entry member
      obtain ⟨name, among, rfl⟩ := List.mem_map.mp member
      obtain ⟨_, here, _⟩ := (mem_fileNames entries name).mp among
      simp [isSubdirectory_file path name (named _ here)]
    rw [pathsBelow_directory, pathsBelow_directory, List.filter_append, files, List.filter_flatMap]
    congr 1
    refine List.flatMap_congr fun entry member => ?_
    have here := ((mem_subdirectories entries entry.1 entry.2).mp member).1
    simp [listed, isSubdirectory_own path entry.1 (named _ here), ih _ here]

theorem filter_listing (node : Node) (proper : node.Proper) :
    (node.listing true).filter (!isSubdirectory ·) = node.listing false := by
  have root : isSubdirectory "/" = false := rfl
  simp [listing, root, filter_pathsBelow node proper]

/-- A path that goes on behind one that it starts with. -/
theorem prefix_paths (withDirectories : Bool) (node : Node) (proper : node.Proper) (path : String) :
    ∀ entry ∈ listed withDirectories path node, path.toList <+: entry.toList := by
  obtain ⟨places, lists⟩ := lists_places withDirectories node proper
  intro entry member
  rcases List.mem_append.mp member with own | inside
  · cases withDirectories with
    | false => cases own
    | true => exact (List.mem_singleton.mp own) ▸ List.prefix_rfl
  · rw [lists.paths] at inside
    obtain ⟨place, _, rfl⟩ := List.mem_map.mp inside
    simp

theorem not_below_file (path name file : String) (named : IsName file) :
    ¬(path ++ name ++ "/").toList <+: (path ++ file).toList := by
  rintro ⟨rest, same⟩
  simp only [String.toList_append, List.append_assoc, List.append_cancel_left_eq] at same
  exact named.whole (by simp [← same])

theorem not_below_other (path name other : String) (named : IsName name) (namedToo : IsName other)
    (different : other ≠ name) (entry : String)
    (inside : (path ++ other ++ "/").toList <+: entry.toList) :
    ¬(path ++ name ++ "/").toList <+: entry.toList := by
  rintro ⟨rest, below⟩
  obtain ⟨more, inside⟩ := inside
  have same := below.trans inside.symm
  simp only [String.toList_append, List.append_assoc, List.append_cancel_left_eq] at same
  have cut := Pattern.component_unique name.toList other.toList _ _ named.whole namedToo.whole
    (by simp [Pattern.AtBoundary]) (by simp [Pattern.AtBoundary]) same
  exact different (String.toList_inj.mp cut.1).symm

/-- The directories in front of one and behind it have other names. -/
theorem subdirectories_around (entries : List (String × Node)) (name : String) (child : Node)
    (member : (name, child) ∈ subdirectories entries) (distinct : (entries.map (·.1)).Nodup) :
    ∃ left right, subdirectories entries = left ++ (name, child) :: right ∧
      ∀ other ∈ left ++ right, other ∈ entries ∧ other.1 ≠ name := by
  obtain ⟨left, right, split⟩ := List.append_of_mem member
  have ascending := sortByName_ascending _
    (distinct_filter entries (·.2.isDirectory) distinct)
  rw [← subdirectories, split, List.pairwise_append, List.pairwise_cons] at ascending
  obtain ⟨_, ⟨behind, _⟩, front⟩ := ascending
  refine ⟨left, right, split, fun other among => ⟨?_, fun same => ?_⟩⟩
  · have listed : other ∈ subdirectories entries := by
      rw [split]
      exact List.mem_append.mpr ((List.mem_append.mp among).imp_right (List.mem_cons_of_mem _))
    exact ((mem_subdirectories entries other.1 other.2).mp listed).1
  · rcases List.mem_append.mp among with inFront | inBack
    · have smaller : other.1 < name := front other inFront (name, child) List.mem_cons_self
      exact String.lt_irrefl name (same ▸ smaller)
    · have greater : name < other.1 := behind other inBack
      exact String.lt_irrefl name (same ▸ greater)

/-- What is listed of a directory among the entries of another stands together, and nothing else is
below it. -/
theorem pathsBelow_entry (withDirectories : Bool) (entries : List (String × Node)) (name : String)
    (child : Node) (member : (name, child) ∈ subdirectories entries)
    (proper : (Node.directory entries).Proper) (path : String) :
    ∃ before after, pathsBelow withDirectories path (.directory entries) =
        before ++ listed withDirectories (path ++ name ++ "/") child ++ after ∧
      ∀ entry ∈ before ++ after, ¬(path ++ name ++ "/").toList <+: entry.toList := by
  cases proper with
  | directory distinct named children =>
    obtain ⟨left, right, split, others⟩ := subdirectories_around entries name child member distinct
    have here := ((mem_subdirectories entries name child).mp member).1
    refine ⟨(fileNames entries).map (path ++ ·) ++ left.flatMap fun entry =>
      listed withDirectories (path ++ entry.1 ++ "/") entry.2, right.flatMap fun entry =>
      listed withDirectories (path ++ entry.1 ++ "/") entry.2, ?_, ?_⟩
    · rw [pathsBelow_directory, split]
      simp
    · intro entry found
      rw [List.append_assoc, ← List.flatMap_append] at found
      -- A file is not below a directory, and what is below another one starts with its name.
      rcases List.mem_append.mp found with asFile | inOther
      · obtain ⟨file, among, rfl⟩ := List.mem_map.mp asFile
        obtain ⟨_, fileHere, _⟩ := (mem_fileNames entries file).mp among
        exact not_below_file path name file (named _ fileHere)
      · obtain ⟨other, among, inside⟩ := List.mem_flatMap.mp inOther
        obtain ⟨otherHere, different⟩ := others other among
        exact not_below_other path name other.1 (named _ here) (named _ otherHere) different entry
          (prefix_paths withDirectories other.2 (children _ otherHere) _ entry inside)

/-- What is listed of a directory stands together, wherever the directory is, and nothing else in
the listing is below it. -/
theorem pathsBelow_block (withDirectories : Bool) (node target : Node) (names : List String)
    (below : node.Below names target) (directory : target.isDirectory = true) (proper : node.Proper)
    (path : String) :
    ∃ before after, node.pathsBelow withDirectories path =
        before ++ listed withDirectories (path ++ placePath names ++ "/") target ++ after ∧
      ∀ entry ∈ before ++ after, ¬(path ++ placePath names ++ "/").toList <+: entry.toList := by
  induction below generalizing path with
  | @entry entries name child member =>
    have single : placePath [name] = name := by simp [placePath]
    have here : (name, child) ∈ subdirectories entries := by
      simp [subdirectories, sortByName, member, directory]
    rw [single]
    exact pathsBelow_entry withDirectories entries name child here proper path
  | @deeper entries name child target names member below ih =>
    have here := (mem_subdirectories entries name child).mpr ⟨member, below.directory⟩
    obtain ⟨before, after, split, outside⟩ :=
      pathsBelow_entry withDirectories entries name child here proper path
    have childProper : child.Proper := by
      cases proper with
      | directory _ _ children => exact children _ member
    obtain ⟨front, back, inner, apart⟩ := ih directory childProper (path ++ name ++ "/")
    have deeper : path ++ name ++ "/" ++ placePath names ++ "/" =
        path ++ placePath (name :: names) ++ "/" := by
      simp [placePath_cons name names below.nonempty, String.append_assoc]
    rw [deeper] at inner apart
    refine ⟨before ++ (if withDirectories then [path ++ name ++ "/"] else []) ++ front,
      back ++ after, ?_, ?_⟩
    · rw [split, listed, inner]
      simp
    · intro entry found
      -- The path of the target extends that of its ancestor, so what is not below the ancestor
      -- is not below the target.
      have longer : (path ++ placePath (name :: names) ++ "/").toList =
          (path ++ name ++ "/").toList ++ (placePath names ++ "/").toList := by
        rw [← deeper]
        simp
      have away (member : entry ∈ before ++ after) :
          ¬(path ++ placePath (name :: names) ++ "/").toList <+: entry.toList := by
        intro inner
        rw [longer] at inner
        exact outside entry member ((List.prefix_append _ _).trans inner)
      have own (member : entry ∈ if withDirectories then [path ++ name ++ "/"] else []) :
          ¬(path ++ placePath (name :: names) ++ "/").toList <+: entry.toList := by
        cases withDirectories with
        | false => cases member
        | true =>
          obtain rfl := List.mem_singleton.mp member
          intro inner
          have shorter := inner.length_le
          rw [longer] at shorter
          simp at shorter
      simp only [List.mem_append] at found away apart
      rcases found with ((inFront | asOwn) | inner) | inner | inBack
      · exact away (.inl inFront)
      · exact own asOwn
      · exact apart entry (.inl inner)
      · exact apart entry (.inr inner)
      · exact away (.inr inBack)

end Node
end IgnoreRules.Files
