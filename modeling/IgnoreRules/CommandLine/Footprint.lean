import IgnoreRules.CommandLine.Outcome

/-!
# What a run looks at

A run looks at a few paths only: the file of settings, the rule file, the directory to be
scanned and the one that holds the log file. The first follows from the command line, the
others from the settings. Whoever runs a command line on a real file system has to provide
these paths, and everything on the way to them.
-/

namespace IgnoreRules.CommandLine

open Files (FileSystem Path)

/-- A path that a run looks at, and whether it looks at everything below it too. -/
structure Visit where
  path : Path
  withEntries : Bool
  deriving DecidableEq, Repr

/-- The paths on the way to a path, and the path itself. -/
def Visit.steps (visit : Visit) : List Path :=
  (List.range (visit.path.names.length + 1)).map fun count =>
    { visit.path with names := visit.path.names.take count }

/-- The path of the file of settings, before and after `~` is replaced. -/
def Arguments.settingsVisits (arguments : Arguments) (files : FileSystem) : List Visit :=
  match given? arguments.config with
  | none => []
  | some written =>
    let path := Path.ofText written
    ⟨path, false⟩ :: (files.expandHome path).toOption.toList.map fun path => ⟨path, false⟩

def Arguments.directoryVisits (arguments : Arguments) : List Visit :=
  arguments.directory?.toList.map fun written => ⟨Path.ofText written, true⟩

/-- The rule file, and the directory it is for if that is to be scanned. -/
def ruleVisits (settings : Settings) (files : FileSystem) (command : Command) : List Visit :=
  match settings.get "ignoreparser.rules.file" .null with
  | .text written =>
    let path := Path.ofText written
    let directory := (files.expandHome path).toOption.map fun path =>
      Path.absolute (files.resolve path).names.dropLast
    let scanned := match command with
      | .check _ => []
      | .scan _ _ _ => directory.toList.map fun directory => ⟨directory, true⟩
    scanned ++ [⟨path, false⟩]
  | _ => []

def logVisits (settings : Settings) (files : FileSystem) : List Visit :=
  match namedFile? (settings.get "ignoreparser.logging.file" .null) with
  | some path => [⟨files.absolute path, false⟩]
  | none => []

end IgnoreRules.CommandLine
