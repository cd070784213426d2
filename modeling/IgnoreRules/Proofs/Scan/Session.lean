import IgnoreRules.CommandLine.Outcome

/-!
# What work in a session returns

Work that succeeds returns a value and leaves a session behind. The steps of a longer piece of work
succeed one after the other, each in the session that the one before it left.
-/

namespace IgnoreRules

variable {ε α β : Type}

/-- Work in a session returns a value and leaves another session. -/
def Returns (work : ExceptT ε (StateM Session) α) (session : Session) (value : α)
    (after : Session) : Prop :=
  (ExceptT.run work).run session = (.ok value, after)

/-- What running some work gives is what it returns. -/
theorem returns_of_run {work : ExceptT ε (StateM Session) α} {session : Session} {value : α}
    (ran : ((ExceptT.run work).run session).1.toOption = some value) :
    Returns work session value ((ExceptT.run work).run session).2 := by
  unfold Returns
  cases result : (ExceptT.run work).run session with
  | mk outcome after =>
    rw [result] at ran
    cases outcome with
    | error problem => cases ran
    | ok returned =>
      obtain rfl := Option.some.inj ran
      rfl

theorem returns_pure (session : Session) (value : α) :
    Returns (pure value : ExceptT ε (StateM Session) α) session value session := by
  unfold Returns
  rfl

theorem Returns.bind {work : ExceptT ε (StateM Session) α}
    {next : α → ExceptT ε (StateM Session) β} {session between after : Session} {value : α}
    {result : β} (first : Returns work session value between)
    (second : Returns (next value) between result after) :
    Returns (work >>= next) session result after := by
  unfold Returns at *
  simp only [ExceptT.run_bind, StateT.run_bind]
  rw [first]
  exact second

theorem Returns.map {work : ExceptT ε (StateM Session) α} {session after : Session} {value : α}
    (change : α → β) (returned : Returns work session value after) :
    Returns (do return change (← work)) session (change value) after :=
  returned.bind (returns_pure after (change value))

theorem Returns.andThen {step : ExceptT ε (StateM Session) Unit}
    {rest : ExceptT ε (StateM Session) α} {session between after : Session} {value : α}
    (first : Returns step session () between) (second : Returns rest between value after) :
    Returns (do step; rest) session value after :=
  first.bind second

theorem returns_log (level : Log.Level) (text : String) (context : Log.Context)
    (session : Session) :
    Returns (Action.log level text context) session () (session.log ⟨level, text, context⟩) := by
  unfold Returns
  rfl

theorem returns_logAll (messages : List Log.Record) (session : Session) :
    Returns (Action.logAll messages) session () (messages.foldl Session.log session) := by
  unfold Returns
  rfl

/-- Work with a context around it goes on with the context pushed, which is popped after it. -/
theorem Returns.within {work : Action α} {context : Log.Context} {session after : Session}
    {value : α}
    (returned : Returns work { session with logger := session.logger.push context } value after) :
    Returns (Action.within context work) session value
      { after with logger := after.logger.pop } := by
  unfold Returns at *
  simp only [Action.within, ExceptT.run_mk, StateT.run_bind, StateT.run_modify, pure_bind]
  rw [returned]
  rfl

/-- A session once rules have been compiled in it. -/
def Session.compiling [Text.CharacterNames] (session : Session) (rules : Ruleset) : Session :=
  rules.messages.foldl Session.log session

theorem returns_compileRules [Text.CharacterNames] (content : List Char) (rules : Ruleset)
    (compiled : Ruleset.ofContent content = .ok rules) (session : Session) :
    Returns (compileRules content) session rules (session.compiling rules) := by
  simp only [compileRules, compiled]
  exact (returns_logAll _ session).bind (returns_pure _ rules)

namespace CommandLine

theorem returns_ofAction {action : Action α} {session after : Session} {value : α}
    (returned : Returns action session value after) :
    Returns (Work.ofAction action) session value after := by
  unfold Returns at *
  simp only [Work.ofAction, ExceptT.run_mk, StateT.run_bind]
  rw [returned]
  rfl

section

variable [Text.CharacterNames] [Files.OtherCodecs] [Files.WalkLimit] {session after : Session}
  {settings : Settings} {command : Command} {lines : List String}

/-- A command finishes and prints lines. -/
structure Prints (session : Session) (settings : Settings) (command : Command)
    (lines : List String) : Prop where
  finished : (carryOut session settings command).ending = .finished
  printed : (carryOut session settings command).printed = lines.map (· ++ "\n")

theorem Prints.output (prints : Prints session settings command lines) :
    (carryOut session settings command).output = String.join (lines.map (· ++ "\n")) := by
  rw [Outcome.output, prints.printed]

theorem prints_of_returns (returned : Returns (commandLines settings command) session lines after) :
    Prints session settings command lines := by
  have ran : (commandLines settings command).run session = (.ok lines, after) := returned
  constructor
  · simp only [carryOut, ran]
  · simp only [carryOut, ran]

end

end CommandLine
end IgnoreRules
