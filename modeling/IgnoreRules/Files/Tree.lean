import IgnoreRules.Files.Path
import IgnoreRules.Text.Quoted

/-!
# File trees

A file system is a tree of directories and files, with a working directory that relative
paths start from and home directories that `~` and `~name` stand for. There are no links,
so `..` always leads back along the way a path has come, and everything may be read and
written.

A question whether a path leads to a file or a directory has an answer even if the path
leads nowhere, but none if the path is too long to be followed.
-/

namespace IgnoreRules.Files

inductive Node
  | file (content : ByteArray)
  | directory (entries : List (String × Node))
  /-- A pipe, a socket or a device. It takes what is written to it and gives nothing. -/
  | special
  deriving Inhabited

inductive FileError
  | notFound
  /-- The path goes on below a file. -/
  | notDirectory
  | isDirectory
  | nameTooLong
  | holdsNul
  | unknownHome
  deriving DecidableEq, Repr

namespace FileError

/-- The words by which an error is reported, with the number that the system has for it. -/
def description : FileError → String
  | .notFound => "[Errno 2] No such file or directory"
  | .notDirectory => "[Errno 20] Not a directory"
  | .isDirectory => "[Errno 21] Is a directory"
  | .nameTooLong => "[Errno 36] File name too long"
  | .holdsNul => "A path holds no NUL"
  | .unknownHome => "No home directory is known"

def message (error : FileError) (path : Path) : String :=
  error.description ++ ": " ++ String.ofList (Text.quoted path.toText.toList)

/-- The system reports the error. -/
def isReported : FileError → Bool
  -- Other errors come up before it is asked.
  | .holdsNul | .unknownHome => false
  | _ => true

end FileError

def maxNameLength : Nat := 255

def maxPathLength : Nat := 4095

namespace Node

def isFile : Node → Bool
  | .file _ => true
  | _ => false

def isDirectory : Node → Bool
  | .directory _ => true
  | _ => false

def child? (entries : List (String × Node)) (name : String) : Option Node :=
  (entries.find? fun entry => entry.1 = name).map (·.2)

/-- Follow names from a node. -/
def walk (above : List Node) (node : Node) : List String → Except FileError Node
  -- The nodes above it are given from the nearest on.
  | [] => .ok node
  | name :: rest =>
    match node with
    | .file _ | .special => .error .notDirectory
    | .directory entries =>
      if name = ".." then
        match above with
        | [] => walk [] node rest
        | parent :: higher => walk higher parent rest
      else if maxNameLength < name.utf8ByteSize then .error .nameTooLong
      else
        match child? entries name with
        | some child => walk (node :: above) child rest
        | none => .error .notFound

/-- Replace the entry of a name, or add one at the end. -/
def putEntry (entries : List (String × Node)) (name : String) (node : Node) :
    List (String × Node) :=
  match entries with
  | [] => [(name, node)]
  | (first, old) :: rest =>
    if first = name then (first, node) :: rest else (first, old) :: putEntry rest name node

/-- Write bytes to the end of a file, which is created if it is missing. -/
def append (node : Node) (names : List String) (bytes : ByteArray) : Except FileError Node :=
  -- Its directory has to be there.
  match node, names with
  | .directory _, [] => .error .isDirectory
  | .file content, [] => .ok (.file (content ++ bytes))
  | .special, [] => .ok .special
  | .file _, _ :: _ | .special, _ :: _ => .error .notDirectory
  | .directory entries, name :: rest =>
    if maxNameLength < name.utf8ByteSize then .error .nameTooLong
    else
      match child? entries name with
      | some child => do return .directory (putEntry entries name (← child.append rest bytes))
      | none =>
        match rest with
        | [] => .ok (.directory (putEntry entries name (.file bytes)))
        | _ :: _ => .error .notFound
  termination_by names

def graft (node : Node) (names : List String) (new : Node) : Node :=
  match names with
  | [] => new
  | name :: rest =>
    match node with
    | .file _ | .special => node
    | .directory entries =>
      let child := (child? entries name).getD (.directory [])
      .directory (putEntry entries name (child.graft rest new))
  termination_by names

end Node

/-- A file tree and the directories that paths may start from. -/
structure FileSystem where
  root : Node
  workingDirectory : List String
  home : String
  homes : List (String × String)

namespace FileSystem

/-- The names on the way to a path from the root. -/
def namesTo (files : FileSystem) (path : Path) : List String :=
  if path.start = .workingDirectory then files.workingDirectory ++ path.names else path.names

/-- A path can be followed: it holds no NUL and is not too long. -/
def checkPath (path : Path) : Except FileError Unit := do
  if path.holdsNul then throw .holdsNul
  if maxPathLength < path.toText.utf8ByteSize then throw .nameTooLong

/-- What a path leads to. -/
def lookup (files : FileSystem) (path : Path) : Except FileError Node := do
  checkPath path
  files.root.walk [] (files.namesTo path)

def leadsTo (files : FileSystem) (path : Path) (test : Node → Bool) : Except FileError Bool :=
  match files.lookup path with
  | .ok node => .ok (test node)
  | .error .nameTooLong => .error .nameTooLong
  | .error _ => .ok false

def isThere (files : FileSystem) (path : Path) : Except FileError Bool :=
  files.leadsTo path fun _ => true

def isFile (files : FileSystem) (path : Path) : Except FileError Bool :=
  files.leadsTo path Node.isFile

def isDirectory (files : FileSystem) (path : Path) : Except FileError Bool :=
  files.leadsTo path Node.isDirectory

def read (files : FileSystem) (path : Path) : Except FileError ByteArray :=
  match files.lookup path with
  | .ok (.file content) => .ok content
  | .ok (.directory _) => .error .isDirectory
  | .ok .special => .ok .empty
  | .error problem => .error problem

/-- The absolute path of a path, by its names alone. -/
def resolve (files : FileSystem) (path : Path) : Path :=
  .absolute (Path.collapse (files.namesTo path))

/-- The absolute path of a path, by its names alone, with the separators it starts with. -/
def absolute (files : FileSystem) (path : Path) : Path :=
  ⟨if path.start = .doubleRoot then .doubleRoot else .root, (files.resolve path).names⟩

/-- The home directory of a user, as it is written. -/
def homeOf (files : FileSystem) (user : List Char) : Except FileError String :=
  -- No name stands for the user of the program.
  if user = [] then .ok files.home
  else if user.contains '\x00' then .error .holdsNul
  else
    match files.homes.lookup (String.ofList user) with
    | some home => .ok home
    | none => .error .unknownHome

def homePath (home : String) : Except FileError Path :=
  let text := (home.toList.reverse.dropWhile (· = '/')).reverse
  match text with
  | [] => .ok (.absolute [])
  | '~' :: _ => .error .unknownHome
  | text => .ok (.ofText (String.ofList text))

/-- Put a home directory for `~` or `~name` at the start of a path. -/
def expandHome (files : FileSystem) (path : Path) : Except FileError Path :=
  match path.start, path.names.map String.toList with
  | .workingDirectory, ('~' :: user) :: _ => do
    let home ← homePath (← files.homeOf user)
    return { home with names := home.names ++ path.names.tail }
  | _, _ => .ok path

/-- Write text to the end of the file at an absolute path. -/
def append (files : FileSystem) (path : Path) (text : String) : Except FileError FileSystem := do
  checkPath path
  return { files with root := ← files.root.append path.names text.toUTF8 }

end FileSystem
end IgnoreRules.Files
