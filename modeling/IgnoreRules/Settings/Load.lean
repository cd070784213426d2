import IgnoreRules.Scan.Failure
import IgnoreRules.Settings.Environment
import IgnoreRules.Settings.Reader

/-!
# Loading settings

A file of settings holds a YAML document in UTF-8, which has to be a map. Loading either
replaces the document of one source or fails and leaves no settings behind, so a caller
goes on with the settings it had.
-/

namespace IgnoreRules.Settings

open Files (FileError FileSystem Path)

/-- How a fault of a document makes loading fail. -/
def failureOf (written : String) : Yaml.Error → Failure
  | .malformed => .settings .malformed written
  | .unreadable => .decoding .malformed
  | .tooDeep => .tooDeep
  | .scalar fault => .scalar fault

/-- How a file that cannot be read makes loading fail. -/
def unreadable (written : String) (path : Path) (problem : FileError) : Failure :=
  if problem.isReported then .settings (.unreadable problem path) written
  else .file problem path

section Reading

variable [Reader]

/-- The document in the bytes of a file. -/
def documentOf (written : String) (bytes : ByteArray) : Except Failure Document :=
  match Reader.read bytes with
  | .error problem => .error (failureOf written problem)
  | .ok graph => if graph.isMap then .ok graph.at? else .error (.settings .notMap written)

/-- The document in a file of settings, whose path is given as it was written. -/
def documentIn (files : FileSystem) (written : String) : Except Failure Document := do
  let path := Path.ofText written
  let path ← Failure.ofFile path (files.expandHome path)
  if !(← Failure.ofFile path (files.isFile path)) then throw (.settings .notFound written)
  documentOf written (← (files.read path).mapError (unreadable written path))

/-- Load a file of settings into a source. -/
def loadFile (settings : Settings) (files : FileSystem) (written : String) (source : Source) :
    Except Failure Settings := do
  return settings.load source (← documentIn files written)

end Reading

def loadEnvironment (settings : Settings) (environment : Environment) : Settings :=
  match environment.document? with
  | some document => settings.load .environment document
  | none => settings

/-- The settings from a file, if one is named, and from variables. -/
def create [Reader] (files : FileSystem) (file : Option String) (environment : Environment) :
    Except Failure Settings := do
  let settings ← match file.filter (· != "") with
    | some written => initial.loadFile files written .userFile
    | none => pure initial
  return settings.loadEnvironment environment

end IgnoreRules.Settings
