import IgnoreRules.Scan.Failure

/-!
# Sessions

A session is what work on rule files goes on in: the files, the logger, what it has shown
so far, and a log file that takes the same lines. An action may fail; what it logged before
stays logged. A log whose file does not take a line goes on without it, and what it says about
that on the console is left out.
-/

namespace IgnoreRules

/-- The surroundings of work on rule files. -/
structure Session where
  files : Files.FileSystem
  logger : Log.Logger
  /-- What has been shown, in order. -/
  records : List Log.Record
  logFile : Option Files.Path
  /-- The time that log lines carry. -/
  time : String

namespace Session

def start (files : Files.FileSystem) (logger : Log.Logger) (time : String) : Session :=
  ⟨files, logger, [], none, time⟩

def lineOf (session : Session) (record : Log.Record) : String :=
  record.line session.time session.logger.name

/-- The files once a line has gone to the log file. -/
def filesWith (session : Session) (line : String) : Files.FileSystem :=
  match session.logFile with
  | none => session.files
  | some path =>
    match session.files.append path line with
    | .ok files => files
    | .error _ => session.files

def log (session : Session) (message : Log.Record) : Session :=
  match session.logger.record? message with
  | none => session
  | some record =>
    { session with
      records := session.records ++ [record]
      files := session.filesWith (session.lineOf record) }

def shown (session : Session) : String :=
  String.join (session.records.map session.lineOf)

end Session

/-- Work that goes on in a session and may fail. -/
abbrev Action (α : Type) := ExceptT Failure (StateM Session) α

namespace Action

def log (level : Log.Level) (text : String) (context : Log.Context) : Action Unit :=
  modify (·.log ⟨level, text, context⟩)

def logAll (messages : List Log.Record) : Action Unit :=
  modify fun session => messages.foldl Session.log session

/-- Work with a context open around it, which is closed whether or not the work fails. -/
def within (context : Log.Context) (work : Action α) : Action α := ExceptT.mk do
  modify fun session => { session with logger := session.logger.push context }
  let result ← work.run
  modify fun session => { session with logger := session.logger.pop }
  return result

def files : Action Files.FileSystem := do return (← get).files

def runIn (session : Session) (work : Action α) : Except Failure α × Session :=
  (ExceptT.run work).run session

end Action
end IgnoreRules
