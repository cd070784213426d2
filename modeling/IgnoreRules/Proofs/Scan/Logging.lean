import IgnoreRules.Proofs.Scan.Failing

/-!
# The lines of a log

Every line of a log carries the time and the name of the session that writes it. Work on rule files
logs and asks the files, and none of this changes the time or the name. So whatever becomes of a
command, its log consists of lines of one hand.
-/

namespace IgnoreRules

variable {ε α β : Type}

namespace Session

/-- The time and the name that a session puts on its log lines. -/
structure Signs (session : Session) (time name : String) : Prop where
  time : session.time = time
  name : session.logger.name = name

theorem Signs.shown {session : Session} {time name : String} (signs : session.Signs time name) :
    session.shown = String.join (session.records.map fun record => record.line time name) := by
  unfold Session.shown lineOf
  rw [signs.time, signs.name]

theorem Signs.log {session : Session} {time name : String} (signs : session.Signs time name)
    (message : Log.Record) : (session.log message).Signs time name := by
  unfold Session.log
  split
  · exact signs
  · exact ⟨signs.time, signs.name⟩

end Session

/-! ## Work that keeps a property -/

/-- A session that has a property before some work has it after, whether the work returns or
fails. -/
def Keeps (property : Session → Prop) (work : ExceptT ε (StateM Session) α) : Prop :=
  ∀ session, property session → property ((ExceptT.run work).run session).2

section
variable {property : Session → Prop}

/-- Work that leaves the session as it is. -/
theorem keeps_of_idle {work : ExceptT ε (StateM Session) α}
    (idle : ∀ session, ((ExceptT.run work).run session).2 = session) : Keeps property work := by
  intro session held
  rwa [idle]

theorem Keeps.bind {work : ExceptT ε (StateM Session) α}
    {next : α → ExceptT ε (StateM Session) β} (first : Keeps property work)
    (second : ∀ value, Keeps property (next value)) : Keeps property (work >>= next) := by
  intro session held
  have between := first session held
  simp only [ExceptT.run_bind, StateT.run_bind]
  cases ran : (ExceptT.run work).run session with
  | mk outcome after =>
    rw [ran] at between
    cases outcome with
    -- Work that fails stops in the session that it leaves behind.
    | error problem => exact between
    | ok value => exact second value after between

theorem keeps_pure (value : α) :
    Keeps property (pure value : ExceptT ε (StateM Session) α) :=
  keeps_of_idle fun _ => rfl

theorem keeps_throw (problem : ε) :
    Keeps property (throw problem : ExceptT ε (StateM Session) α) :=
  keeps_of_idle fun _ => rfl

theorem keeps_lift (outcome : Except ε α) :
    Keeps property (liftM outcome : ExceptT ε (StateM Session) α) :=
  keeps_of_idle fun _ => rfl

/-- Work that goes on only where nothing is in its way. -/
theorem keeps_unless {work : ExceptT ε (StateM Session) α} (refused : Prop) [Decidable refused]
    (problem : ε) (rest : Keeps property work) :
    Keeps property (if refused then (do throw problem; work) else work) := by
  split
  · exact (keeps_throw problem).bind fun _ => rest
  · exact rest

theorem keeps_files : Keeps property Action.files := keeps_of_idle fun _ => rfl

theorem keeps_ofAction {action : Action α} (kept : Keeps property action) :
    Keeps property (CommandLine.Work.ofAction action) := by
  intro session held
  have after := kept session held
  simp only [CommandLine.Work.ofAction, ExceptT.run_mk, StateT.run_bind]
  cases ran : (ExceptT.run action).run session with
  | mk outcome between =>
    rw [ran] at after
    exact after

end

/-! ## Commands -/

section
variable {time name : String}

theorem keeps_log (level : Log.Level) (text : String) (context : Log.Context) :
    Keeps (·.Signs time name) (Action.log level text context) :=
  fun _ signs => signs.log _

theorem keeps_logAll (messages : List Log.Record) :
    Keeps (·.Signs time name) (Action.logAll messages) := by
  intro session signs
  change (messages.foldl Session.log session).Signs time name
  induction messages generalizing session with
  | nil => exact signs
  | cons message messages ih => exact ih _ (signs.log message)

theorem keeps_loadRules [Text.CharacterNames] [Files.OtherCodecs] (path : Files.Path)
    (encoding : Value) :
    Keeps (·.Signs time name) (loadRules path encoding) := by
  have read : Keeps (·.Signs time name) (readRules path encoding) := by
    refine (keeps_log _ _ _).bind fun _ => (keeps_lift _).bind fun codec => ?_
    refine Keeps.bind ?_ fun bytes => (keeps_lift _).bind fun text => keeps_pure _
    exact keeps_files.bind fun files => keeps_lift _
  refine read.bind fun content => ?_
  unfold compileRules
  split
  · exact (keeps_logAll _).bind fun _ => keeps_pure _
  · exact (keeps_logAll _).bind fun _ => keeps_throw _

theorem keeps_listFiles [Files.WalkLimit] (written : String) (withDirectories : Bool) :
    Keeps (·.Signs time name) (listFiles written withDirectories) := by
  refine keeps_files.bind fun files => (keeps_lift _).bind fun _ => ?_
  split
  · exact keeps_throw _
  · exact keeps_unless _ _ ((keeps_log _ _ _).bind fun _ => keeps_pure _)

theorem keeps_ruleDirectory (written : String) :
    Keeps (·.Signs time name) (ruleDirectory written) := by
  refine keeps_files.bind fun files => (keeps_lift _).bind fun expanded => ?_
  refine keeps_unless _ _ (keeps_unless _ _ ?_)
  exact (keeps_lift _).bind fun _ => keeps_unless _ _ (keeps_pure _)

namespace CommandLine

theorem keeps_configuredRules [Files.OtherCodecs] [Text.CharacterNames] (settings : Settings) :
    Keeps (·.Signs time name) (configuredRules settings) := by
  unfold configuredRules
  split
  · have asked (path : Files.Path) : Keeps (·.Signs time name)
        (do Failure.ofFile path ((← Action.files).isFile path) : Action Bool) :=
      keeps_files.bind fun files => keeps_lift _
    refine (keeps_ofAction (asked _)).bind fun _ => keeps_unless _ _ ?_
    refine (keeps_ofAction (keeps_loadRules _ _)).bind fun rules => ?_
    exact (keeps_ofAction (keeps_log _ _ _)).bind fun _ => keeps_pure _
  · exact keeps_throw _

theorem keeps_scanLines [Files.WalkLimit] (settings : Settings) (rulePath : String)
    (rules : Ruleset) (directory : Option String) (selection : Selection) :
    Keeps (·.Signs time name) (scanLines settings rulePath rules directory selection) := by
  -- Whichever way the directory is found, what follows is the same.
  have listed (path : Files.Path) : Keeps (·.Signs time name) (do
      Action.log .info "Scanning directory"
        [("directory", .text path.toText), ("show", .text selection.name)]
      let entries ← listFiles path.toText
        (settings.get "ignoreparser.scan.include_directories" (.bool false)).isTruthy
      return selectionLines rules entries selection) :=
    (keeps_log _ _ _).bind fun _ => (keeps_listFiles _ _).bind fun _ => keeps_pure _
  unfold scanLines
  split
  · exact (keeps_pure _).bind listed
  · exact (keeps_ruleDirectory _).bind listed

/-- A command writes the lines of its log in one hand, whether it succeeds or not. -/
theorem keeps_commandLines [Text.CharacterNames] [Files.OtherCodecs] [Files.WalkLimit]
    (settings : Settings) (command : Command) :
    Keeps (·.Signs time name) (commandLines settings command) := by
  refine (keeps_configuredRules settings).bind fun loaded => ?_
  obtain ⟨rulePath, rules⟩ := loaded
  cases command with
  | check paths => exact keeps_pure _
  | scan directory withDirectories selection =>
    exact keeps_ofAction (keeps_scanLines settings rulePath rules directory selection)

end CommandLine

end
end IgnoreRules
