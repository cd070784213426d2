/-!
# Paths

A path is a sequence of names, absolute or relative. Empty names and `.` are dropped when
it is read; `..` is kept, since what it leads to is for the file system to say. Two
separators in front are kept apart from one; more count as one.
-/

namespace IgnoreRules.Files

inductive PathStart
  | workingDirectory
  | root
  | doubleRoot
  deriving DecidableEq, Repr

structure Path where
  start : PathStart
  names : List String
  deriving DecidableEq, Repr

namespace Path

def startOf : List Char → PathStart
  | '/' :: '/' :: '/' :: _ => .root
  | '/' :: '/' :: _ => .doubleRoot
  | '/' :: _ => .root
  | _ => .workingDirectory

/-- The names in a text, without the empty ones and `.`. -/
def namesOf (text : List Char) : List String :=
  ((text.splitOn '/').filter fun name => name != [] && name != ['.']).map String.ofList

def ofText (text : String) : Path := ⟨startOf text.toList, namesOf text.toList⟩

def PathStart.text : PathStart → String
  | .workingDirectory => ""
  | .root => "/"
  | .doubleRoot => "//"

/-- A path as text. -/
def toText (path : Path) : String :=
  -- The empty relative path is `.`.
  if path.start = .workingDirectory ∧ path.names = [] then "."
  else PathStart.text path.start ++ "/".intercalate path.names

def holdsNul (path : Path) : Bool := path.names.any fun name => name.toList.contains '\x00'

def absolute (names : List String) : Path := ⟨.root, names⟩

/-- Carry out every `..` on the names alone. -/
def collapse (names : List String) : List String :=
  -- At the root it has no effect.
  (names.foldl (fun reached name =>
    if name = ".." then reached.tail else name :: reached) []).reverse

end Path
end IgnoreRules.Files
