import IgnoreRules.CommandLine.Grammar
import IgnoreRules.Files.Tree
import IgnoreRules.Settings.Layers

/-!
# Command-line arguments

Options that concern every command come first, then one of two commands: `check` tells for
paths whether they are ignored, `scan` lists a directory. A file of settings has to exist
and a directory to be scanned too, before any work is done.
-/

namespace IgnoreRules.CommandLine

open Files (FileError FileSystem Path)

inductive Selection
  | accepted
  | denied
  | all
  deriving DecidableEq, Repr

inductive Command
  | check (paths : List String)
  | scan (directory : Option String) (withDirectories : Bool) (selection : Selection)
  deriving DecidableEq, Repr

structure Arguments where
  config : Option String
  rules : Option String
  encoding : Option String
  logFile : Option String
  debug : Bool
  command : Command
  deriving DecidableEq, Repr

/-- The text of an option, unless it is empty. -/
def given? (option : Option String) : Option String := option.filter (· != "")

namespace Selection

def name : Selection → String
  | .accepted => "accepted"
  | .denied => "denied"
  | .all => "all"

def ofName? (name : String) : Option Selection :=
  [.accepted, .denied, .all].find? fun selection : Selection => selection.name = name

end Selection

def helpOption : OptionSpec α := .leave ["-h", "--help"] .help

def checkGrammar : Grammar (List String) where
  options := [helpOption]
  arity := .atLeastOne
  operands := fun paths _ => .ok paths

structure ScanArguments where
  directory : Option String
  withDirectories : Bool
  selection : Selection
  deriving DecidableEq, Repr

def scanGrammar : Grammar ScanArguments where
  options := [
    helpOption,
    .flag ["--include-directories"] fun scan => { scan with withDirectories := true },
    ⟨["--show"], true, fun name scan =>
      match Selection.ofName? name with
      | some selection => .ok { scan with selection }
      | none => .error .usage⟩]
  arity := .atMostOne
  operands := fun operands scan => .ok { scan with directory := operands.head? }

/-- What has been read of a command line. -/
structure PartialArguments where
  config : Option String
  rules : Option String
  encoding : Option String
  logFile : Option String
  debug : Bool
  command : Option Command
  /-- Words after the command that fit nowhere. -/
  unused : List String
  deriving DecidableEq, Repr

def readCommand (words : List String) (arguments : PartialArguments) :
    Except Exit PartialArguments :=
  match words with
  | "check" :: rest => do
    let (paths, unused) ← checkGrammar.read [] rest
    return { arguments with command := some (.check paths), unused }
  | "scan" :: rest => do
    let (scan, unused) ← scanGrammar.read ⟨none, false, .denied⟩ rest
    let command := .scan scan.directory scan.withDirectories scan.selection
    return { arguments with command := some command, unused }
  | _ => .error .usage

def grammar : Grammar PartialArguments where
  options := [
    helpOption,
    .leave ["-v", "--version"] .version,
    .value ["-c", "--config"] fun given arguments => { arguments with config := some given },
    .value ["-r", "--rules"] fun given arguments => { arguments with rules := some given },
    .value ["-e", "--encoding"] fun given arguments => { arguments with encoding := some given },
    .flag ["--debug"] fun arguments => { arguments with debug := true },
    .value ["--log-file"] fun given arguments => { arguments with logFile := some given }]
  arity := .everything
  operands := readCommand

namespace Arguments

def ofWords (words : List String) : Except Exit Arguments := do
  let start : PartialArguments := ⟨none, none, none, none, false, none, []⟩
  let (read, unused) ← grammar.read start words
  match read.command with
  | some command =>
    if !unused.isEmpty || !read.unused.isEmpty then throw .usage
    return ⟨read.config, read.rules, read.encoding, read.logFile, read.debug, command⟩
  | none => throw .usage

def directory? (arguments : Arguments) : Option String :=
  match arguments.command with
  | .check _ => none
  | .scan directory _ _ => given? directory

def withDirectories (arguments : Arguments) : Bool :=
  match arguments.command with
  | .check _ => false
  | .scan _ withDirectories _ => withDirectories

/-- A value under a name, if there is one. -/
def entry (name : String) (value : Option Value) : List (String × Value) :=
  value.toList.map fun value => (name, value)

/-- The settings that a command line gives. -/
def values (arguments : Arguments) : Value :=
  -- Only what is given is there.
  Settings.underRoot <| .ofFields [
    ("rules", .ofFields <| entry "file" ((given? arguments.rules).map .text) ++
      entry "encoding" ((given? arguments.encoding).map .text)),
    ("scan", .ofFields <| entry "include_directories" <|
      if arguments.withDirectories then some (.bool true) else none),
    ("logging", .ofFields <|
      entry "level" (if arguments.debug then some (.text "DEBUG") else none) ++
      entry "file" ((given? arguments.logFile).map .text))]

end Arguments

inductive PathProblem
  | configMissing (path : String)
  | configNotFile (path : String)
  | directoryMissing (path : String)
  /-- A path cannot be followed. -/
  | file (problem : FileError) (path : Path)
  deriving DecidableEq, Repr

def PathProblem.message : PathProblem → String
  | .configMissing path => "Configuration file does not exist: " ++ path
  | .configNotFile path => "Configuration path is not a file: " ++ path
  | .directoryMissing path => "Scan directory does not exist: " ++ path
  | .file problem path => problem.message path

def Arguments.checkPaths (arguments : Arguments) (files : FileSystem) :
    Except PathProblem Unit := do
  match given? arguments.config with
  | none => pure ()
  | some written =>
    let path := Path.ofText written
    if !(← (files.isThere path).mapError (.file · path)) then throw (.configMissing written)
    if !(← (files.isFile path).mapError (.file · path)) then throw (.configNotFile written)
  match arguments.directory? with
  | none => pure ()
  | some written =>
    let path := Path.ofText written
    if !(← (files.isDirectory path).mapError (.file · path)) then
      throw (.directoryMissing written)

end IgnoreRules.CommandLine
