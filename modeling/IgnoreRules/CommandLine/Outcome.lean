import IgnoreRules.CommandLine.Arguments
import IgnoreRules.Scan.Filter
import IgnoreRules.Settings.Load

/-!
# Running a command line

A run reads the command line, then the settings, opens the log and compiles the rule file;
only then does the command produce its lines, so a run that fails prints none. Settings
come from the file that is named, from the environment and from the command line, each
stronger than the one before.

A run finishes with 0, or with 1 after a report of what went wrong. A few failures are not
reported: they break the run off.
-/

namespace IgnoreRules.CommandLine

open Files (FileError FileSystem Path)

structure World where
  files : FileSystem
  environment : Environment
  time : String

inductive Trouble
  | paths (problem : PathProblem)
  | unknownLevel (name : String)
  /-- The log file is given as it is set, and its path in quotes. -/
  | logFile (written : String) (problem : FileError) (place : String)
  | rulesMissing (path : Path)
  | failure (cause : Failure)
  deriving DecidableEq, Repr

def Trouble.message : Trouble → String
  | .paths problem => problem.message
  | .unknownLevel name => "Invalid log level: " ++ name
  | .logFile written problem place =>
    "Cannot open log file " ++ written ++ ": " ++ problem.description ++ ": " ++ place
  | .rulesMissing path => "Rule file does not exist: " ++ path.toText
  | .failure cause => cause.message

inductive Ending
  | left (exit : Exit)
  | finished
  | reported (trouble : Trouble)
  | broken (cause : Failure)
  deriving DecidableEq, Repr

def Ending.ofTrouble : Trouble → Ending
  | .failure cause => if cause.isReported then .reported (.failure cause) else .broken cause
  | trouble => .reported trouble

/-- Work that may run into trouble. -/
abbrev Work (α : Type) := ExceptT Trouble (StateM Session) α

def Work.ofAction (action : Action α) : Work α := ExceptT.mk do
  return (← action.run).mapError .failure

/-- The settings that a run works with. -/
def settingsOf [Settings.Reader] (world : World) (arguments : Arguments) :
    Except Trouble Settings := do
  (arguments.checkPaths world.files).mapError .paths
  let settings ←
    (Settings.create world.files arguments.config world.environment).mapError .failure
  return settings.load .commandLine arguments.values.at?

/-- The file that a setting names by its text or by bytes. -/
def namedFile? : Value → Option Path
  | .text written => some (.ofText written)
  | .bytes content =>
    -- What is no text stands for a name with a character for each byte.
    let text := (String.fromUTF8? (ByteArray.mk content.toArray)).getD
      (String.ofList (content.map fun byte => Char.ofNat byte.toNat))
    some (.ofText text)
  | _ => none

/-- A path in quotes, of the kind that the setting for it has. -/
def quotedPath (path : Path) : Value → String
  | .bytes _ => quotedBytes path.toText.toUTF8.data.toList
  | _ => String.ofList (Text.quoted path.toText.toList)

/-- The session of a run, with its log file created if there is none yet. -/
def openLog (world : World) (settings : Settings) : Except Trouble Session := do
  let level := settings.get "ignoreparser.logging.level" (.text "INFO")
  let logger ← match Log.Logger.create Log.Logger.defaultName level with
    | .ok logger => pure logger
    | .error (.unknownName name) => throw (.unknownLevel name)
    | .error .wrongType => throw (.failure .wrongType)
  let session := Session.start world.files logger world.time
  let file := settings.get "ignoreparser.logging.file" .null
  if !file.isTruthy then return session
  match namedFile? file with
  | some named =>
    let path := world.files.absolute named
    match world.files.append path "" with
    | .ok files => return { session with files, logFile := some path }
    | .error problem =>
      if problem.isReported then
        throw (.logFile file.toText problem (quotedPath path file))
      else throw (.failure (.file problem path))
  | none => throw (.failure .wrongType)

/-- The path of the rule file, as it is set, and its rules. -/
def configuredRules [Text.CharacterNames] [Files.OtherCodecs] (settings : Settings) :
    Work (String × Ruleset) := do
  match settings.get "ignoreparser.rules.file" .null with
  | .text written => do
    let path := Path.ofText written
    let isFile ← Work.ofAction do Failure.ofFile path ((← Action.files).isFile path)
    if !isFile then throw (.rulesMissing path)
    let encoding := settings.get "ignoreparser.rules.encoding" .null
    let rules ← Work.ofAction (loadRules path encoding)
    Work.ofAction (Action.log .debug "Loaded rule file" [("rule_file", .text written)])
    return (written, rules)
  | _ => throw (.failure .wrongType)

def verdictLine (rules : Ruleset) (path : String) : String :=
  (if rules.denies path.toList then "ignored" else "kept") ++ "\t" ++ path

/-- The lines that show the selected entries of a directory. -/
def selectionLines (rules : Ruleset) (entries : List String) : Selection → List String
  | .accepted => rules.acceptedEntries entries
  | .denied => rules.deniedEntries entries
  | .all => entries.map (verdictLine rules)

/-- Scan a directory. -/
def scanLines [Files.WalkLimit] (settings : Settings) (rulePath : String) (rules : Ruleset)
    (directory : Option String) (selection : Selection) : Action (List String) := do
  -- Unless one is named, it is the one that the rule file is for.
  let directory ← match given? directory with
    | some written => pure (Path.ofText written)
    | none => ruleDirectory rulePath
  let withDirectories :=
    (settings.get "ignoreparser.scan.include_directories" (.bool false)).isTruthy
  Action.log .info "Scanning directory"
    [("directory", .text directory.toText), ("show", .text selection.name)]
  return selectionLines rules (← listFiles directory.toText withDirectories) selection

/-- The lines that a command prints. -/
def commandLines [Text.CharacterNames] [Files.OtherCodecs] [Files.WalkLimit]
    (settings : Settings) (command : Command) : Work (List String) := do
  let (rulePath, rules) ← configuredRules settings
  match command with
  | .check paths => return paths.map (verdictLine rules)
  | .scan directory _ selection =>
    Work.ofAction (scanLines settings rulePath rules directory selection)

def versionText : String := "ignoreparser 1.0.0\n"

def usageText : String :=
  "usage: ignoreparser [-h] [-v] [-c FILE] [-r FILE] [-e CODEC] [--debug] [--log-file FILE]\n" ++
  "                    \x7bcheck PATH [PATH ...] | scan [--include-directories]\n" ++
  "                     [--show \x7baccepted,denied,all\x7d] [DIR]\x7d\n"

/-- What a run leaves behind. -/
structure Outcome where
  ending : Ending
  /-- The texts that are printed, one after another. -/
  printed : List String
  logged : String
  /-- Where they were written too. -/
  logFile : Option Path
  files : FileSystem

namespace Outcome

def output (outcome : Outcome) : String := String.join outcome.printed

/-- What is shown besides the output: the log, then what went wrong. -/
def errors (outcome : Outcome) : String :=
  outcome.logged ++
    match outcome.ending with
    | .reported trouble => "Error: " ++ trouble.message ++ "\n"
    | .left .usage => usageText
    | _ => ""

def code (outcome : Outcome) : Nat :=
  match outcome.ending with
  | .left .usage => 2
  | .left _ | .finished => 0
  | .reported _ | .broken _ => 1

end Outcome

/-- The outcome of a command line that is not carried out. -/
def leave (world : World) (exit : Exit) : Outcome :=
  let printed := match exit with
    | .usage => []
    | .help => [usageText]
    | .version => [versionText]
  ⟨.left exit, printed, "", none, world.files⟩

section

variable [Text.CharacterNames] [Files.OtherCodecs] [Files.WalkLimit]

def carryOut (session : Session) (settings : Settings) (command : Command) : Outcome :=
  let (result, session) := (commandLines settings command).run session
  let (ending, lines) := match result with
    | .ok lines => (Ending.finished, lines)
    | .error trouble => (Ending.ofTrouble trouble, [])
  ⟨ending, lines.map (· ++ "\n"), session.shown, session.logFile, session.files⟩

variable [Settings.Reader]

/-- Settings and a session for a command. -/
def prepare (world : World) (arguments : Arguments) : Except Trouble (Settings × Session) := do
  let settings ← settingsOf world arguments
  return (settings, ← openLog world settings)

def run (world : World) (words : List String) : Outcome :=
  match Arguments.ofWords words with
  | .error exit => leave world exit
  | .ok arguments =>
    match prepare world arguments with
    | .error trouble => ⟨.ofTrouble trouble, [], "", none, world.files⟩
    | .ok (settings, session) => carryOut session settings arguments.command

end

end IgnoreRules.CommandLine
