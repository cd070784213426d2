import IgnoreRules.CommandLine.Footprint
import IgnoreRules.CommandLine.Run
import IgnoreRules.Files.Accounts
import Std.Time.Format

/-!
# The program

Collects the files that a command line concerns, runs it on them, and shows the outcome.
-/

namespace IgnoreRules.Program

open CommandLine (Arguments Outcome Visit World)
open Files (FileSystem Node Path)

/-- What is at a path, with everything below it. -/
partial def readTree (text : String) : IO Node := do
  let path := (← IO.currentDir) / text
  match (← path.metadata).type with
  | .dir =>
    let entries ← (← path.readDir).toList.mapM fun entry => do
      return (entry.fileName, ← readTree entry.path.toString)
    return .directory entries
  | .file => return .file (← IO.FS.readBinFile path)
  | _ => return .special

/-- Add what is at a path, and the directories on the way to it. -/
def collect (files : FileSystem) (visit : Visit) : IO FileSystem := do
  let here ← IO.currentDir
  let mut files := files
  for step in visit.steps do
    let place := here / step.toText
    if !(files.lookup step).isOk && (← place.pathExists) then
      let node ← if ← place.isDir then pure (.directory []) else readTree step.toText
      files := { files with root := files.root.graft (files.resolve step).names node }
  if visit.withEntries && (← (here / visit.path.toText).isDir) then
    let node ← readTree visit.path.toText
    files := { files with root := files.root.graft (files.resolve visit.path).names node }
  return files

def readEnvironment : IO Environment := do
  let bytes ← IO.FS.readBinFile "/proc/self/environ"
  let entries := bytes.toList.splitOn 0
  return entries.filterMap fun entry => do
    let text ← String.fromUTF8? (ByteArray.mk entry.toArray)
    let name := text.toList.takeWhile (· != '=')
    return (String.ofList name, String.ofList (text.toList.drop (name.length + 1)))

def readHomes : IO (List (String × String)) := do
  try
    return Files.homesOf (← IO.FS.readFile "/etc/passwd")
  catch _ => return []

def emptyFiles : IO FileSystem := do
  let here := Path.namesOf (← IO.currentDir).toString.toList
  let home := (← IO.getEnv "HOME").getD "/"
  return ⟨(Node.directory []).graft here (.directory []), here, home, ← readHomes⟩

def now : IO String := do
  return (← Std.Time.PlainDateTime.now).format "uuuu-MM-dd HH:mm:ss"

/-- The world that a command line finds. -/
def findWorld (words : List String) : IO World := do
  let world : World := ⟨← emptyFiles, ← readEnvironment, ← now⟩
  match Arguments.ofWords words with
  | .error _ => return world
  | .ok arguments =>
    let visits := arguments.settingsVisits world.files ++ arguments.directoryVisits
    let world := { world with files := ← visits.foldlM collect world.files }
    match CommandLine.settingsOf world arguments with
    | .error _ => return world
    | .ok settings =>
      let visits := CommandLine.ruleVisits settings world.files arguments.command ++
        CommandLine.logVisits settings world.files
      return { world with files := ← visits.foldlM collect world.files }

def present (outcome : Outcome) : IO UInt32 := do
  IO.print outcome.output
  IO.eprint outcome.errors
  match outcome.logFile with
  | some path => (← IO.FS.Handle.mk path.toText .append).putStr outcome.logged
  | none => pure ()
  match outcome.ending with
  | .broken cause => IO.eprintln cause.message
  | _ => pure ()
  return UInt32.ofNat outcome.code

end IgnoreRules.Program

def main (words : List String) : IO UInt32 := do
  let world ← IgnoreRules.Program.findWorld words
  IgnoreRules.Program.present (IgnoreRules.CommandLine.runProgram world words)
