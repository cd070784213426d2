import IgnoreRules.Files.Tree
import IgnoreRules.Text.Order

/-!
# Directory listings

A listing names everything below a directory by its path from there. It starts with `/`
for the directory itself; then come its files, in the order of their names, and then,
directory by directory in the same order, what is below them. On request every directory
is listed too, with a separator at its end and before what it holds. Whatever is no
directory counts as a file.

A listing is made on a walk, which opens every directory by the path it has come to it. A
directory whose path is too long cannot be opened, and the walk passes over it. The
directories around the one that it is in stay open, and how many may be open at once is left
to an instance.
-/

namespace IgnoreRules.Files

/-- How far walks go. -/
class WalkLimit where
  /-- The number of directories that may be open at once, if there is a limit. -/
  depth? : Option Nat

def sortByName (entries : List (String × α)) : List (String × α) :=
  entries.mergeSort fun left right => Text.precedes left.1.toList right.1.toList

namespace Node

/-- The names of the files among the entries of a directory, in order. -/
def fileNames (entries : List (String × Node)) : List String :=
  (sortByName (entries.filter (!·.2.isDirectory))).map (·.1)

mutual

/-- What lies below a node whose own path, with a separator at its end, is given. -/
def pathsBelow (withDirectories : Bool) (path : String) : Node → List String
  | .file _ | .special => []
  | .directory entries =>
    (fileNames entries).map (path ++ ·) ++
      (sortByName (directoriesBelow withDirectories path entries)).flatMap (·.2)

/-- The paths of every directory among the entries and of what is below it, by the name of
the directory. -/
def directoriesBelow (withDirectories : Bool) (path : String) :
    List (String × Node) → List (String × List String)
  | [] => []
  | (name, node) :: rest =>
    let others := directoriesBelow withDirectories path rest
    if node.isDirectory then
      let inner := path ++ name ++ "/"
      let listed := pathsBelow withDirectories inner node
      (name, if withDirectories then inner :: listed else listed) :: others
    else others

end

def listing (withDirectories : Bool) (node : Node) : List String :=
  "/" :: node.pathsBelow withDirectories ""

/-! ## Walks -/

/-- A walk passes over an entry: it is a directory whose path has too great a length. -/
def isPassedOver (node : Node) (length : Nat) : Bool :=
  node.isDirectory && maxPathLength < length

mutual

/-- The part of a node that a walk comes to. What the paths in it start with, up to the last
separator, has the given length. -/
def walked (lead : Nat) : Node → Node
  | .directory entries => .directory (walkedEntries lead entries)
  | node => node

def walkedEntries (lead : Nat) : List (String × Node) → List (String × Node)
  | [] => []
  | (name, node) :: rest =>
    let length := lead + name.utf8ByteSize
    let others := walkedEntries lead rest
    if node.isPassedOver length then others else (name, walked (length + 1) node) :: others

end

mutual

/-- The greatest number of directories that a walk has open at once. -/
def walkDepth (lead : Nat) : Node → Nat
  | .directory entries => entryDepth lead entries + 1
  | _ => 0

def entryDepth (lead : Nat) : List (String × Node) → Nat
  | [] => 0
  | (name, node) :: rest =>
    let length := lead + name.utf8ByteSize
    -- It takes an attempt to open it until a directory is passed over.
    let depth := if node.isPassedOver length then 1 else walkDepth (length + 1) node
    max depth (entryDepth lead rest)

end

end Node

/-- The number of bytes in a path with a separator at its end. -/
def Path.leadLength (path : Path) : Nat :=
  let length := path.toText.utf8ByteSize
  if path.names = [] ∧ path.start ≠ .workingDirectory then length else length + 1

/-- The directory that a path leads to, if it leads to one. -/
def FileSystem.directory? (files : FileSystem) (path : Path) : Option Node :=
  match files.lookup path with
  | .ok (.directory entries) => some (.directory entries)
  | _ => none

/-- A walk may have a number of directories open at once. -/
def WalkLimit.permits [WalkLimit] (depth : Nat) : Bool :=
  match depth? with
  | some limit => depth ≤ limit
  | none => true

end IgnoreRules.Files
