import IgnoreRules.Proofs.Outcome
import IgnoreRules.Proofs.Ruleset.Compilation
import IgnoreRules.Proofs.Scan.Session

/-!
# How work in a session fails

Work in a session returns a value or fails. Work that goes in steps fails where its first step
fails, or where that step returns and the rest fails in the session it left. What is asked of the
files or lifted from a plain computation leaves the session as it is, and logging never fails.
-/

namespace IgnoreRules

variable {ε α β : Type}

/-- Work in a session fails. -/
def Fails (work : ExceptT ε (StateM Session) α) (session : Session) (problem : ε) : Prop :=
  ((ExceptT.run work).run session).1 = .error problem

theorem returns_or_fails (work : ExceptT ε (StateM Session) α) (session : Session) :
    (∃ value after, Returns work session value after) ∨ ∃ problem, Fails work session problem := by
  unfold Returns Fails
  cases (ExceptT.run work).run session with
  | mk outcome after =>
    cases outcome with
    | error problem => exact .inr ⟨problem, rfl⟩
    | ok value => exact .inl ⟨value, after, rfl⟩

theorem Returns.not_fails {work : ExceptT ε (StateM Session) α} {session after : Session}
    {value : α} (returned : Returns work session value after) (problem : ε) :
    ¬Fails work session problem := by
  unfold Fails
  rw [returned]
  simp

theorem Fails.unique {work : ExceptT ε (StateM Session) α} {session : Session} {problem other : ε}
    (failed : Fails work session problem) (again : Fails work session other) : problem = other :=
  Except.error.inj (failed.symm.trans again)

/-! ## Steps -/

@[simp]
theorem returns_bind_iff (work : ExceptT ε (StateM Session) α)
    (next : α → ExceptT ε (StateM Session) β) (session after : Session) (result : β) :
    Returns (work >>= next) session result after ↔
      ∃ value between, Returns work session value between ∧
        Returns (next value) between result after := by
  constructor
  · intro returned
    unfold Returns at *
    simp only [ExceptT.run_bind, StateT.run_bind] at returned
    cases first : (ExceptT.run work).run session with
    | mk outcome between =>
      rw [first] at returned
      cases outcome with
      | error problem => cases returned
      | ok value => exact ⟨value, between, rfl, returned⟩
  · rintro ⟨value, between, first, second⟩
    exact first.bind second

@[simp]
theorem fails_bind_iff (work : ExceptT ε (StateM Session) α)
    (next : α → ExceptT ε (StateM Session) β) (session : Session) (problem : ε) :
    Fails (work >>= next) session problem ↔
      Fails work session problem ∨
        ∃ value between, Returns work session value between ∧
          Fails (next value) between problem := by
  unfold Fails Returns
  simp only [ExceptT.run_bind, StateT.run_bind]
  cases first : (ExceptT.run work).run session with
  | mk outcome between =>
    cases outcome with
    | error other =>
      constructor
      · intro failed
        obtain rfl : other = problem := Except.error.inj failed
        exact .inl rfl
      · rintro (failed | ⟨_, _, ⟨⟩, _⟩)
        obtain rfl : other = problem := Except.error.inj failed
        rfl
    | ok value =>
      change ((ExceptT.run (next value)).run between).1 = .error problem ↔ _
      constructor
      · intro failed
        exact .inr ⟨value, between, rfl, failed⟩
      · rintro (⟨⟨⟩⟩ | ⟨_, _, ⟨⟩, failed⟩)
        exact failed

@[simp]
theorem returns_pure_iff (session after : Session) (value result : α) :
    Returns (pure value : ExceptT ε (StateM Session) α) session result after ↔
      value = result ∧ session = after := by
  change (Except.ok value, session) = (Except.ok result, after) ↔ _
  simp

@[simp]
theorem not_fails_pure (session : Session) (value : α) (problem : ε) :
    ¬Fails (pure value : ExceptT ε (StateM Session) α) session problem := by
  rintro ⟨⟩

@[simp]
theorem fails_map_iff (work : ExceptT ε (StateM Session) α) (change : α → β) (session : Session)
    (problem : ε) : Fails (change <$> work) session problem ↔ Fails work session problem := by
  rw [map_eq_pure_bind, fails_bind_iff]
  simp

@[simp]
theorem fails_throw_iff (session : Session) (problem cause : ε) :
    Fails (throw problem : ExceptT ε (StateM Session) α) session cause ↔ problem = cause := by
  change Except.error problem = Except.error cause ↔ _
  simp

@[simp]
theorem not_returns_throw (session after : Session) (problem : ε) (value : α) :
    ¬Returns (throw problem : ExceptT ε (StateM Session) α) session value after := by
  rintro ⟨⟩

@[simp]
theorem returns_lift_iff (outcome : Except ε α) (session after : Session) (value : α) :
    Returns (liftM outcome : ExceptT ε (StateM Session) α) session value after ↔
      outcome = .ok value ∧ session = after := by
  change (outcome, session) = (Except.ok value, after) ↔ _
  simp

@[simp]
theorem fails_lift_iff (outcome : Except ε α) (session : Session) (problem : ε) :
    Fails (liftM outcome : ExceptT ε (StateM Session) α) session problem ↔
      outcome = .error problem := by
  rfl

@[simp]
theorem returns_files_iff (session after : Session) (files : Files.FileSystem) :
    Returns Action.files session files after ↔ session.files = files ∧ session = after := by
  change (Except.ok session.files, session) = (Except.ok files, after) ↔ _
  simp

@[simp]
theorem not_fails_files (session : Session) (problem : Failure) :
    ¬Fails Action.files session problem := by
  rintro ⟨⟩

@[simp]
theorem returns_log_iff (level : Log.Level) (text : String) (context : Log.Context)
    (session after : Session) (value : Unit) :
    Returns (Action.log level text context) session value after ↔
      session.log ⟨level, text, context⟩ = after := by
  change (Except.ok (), session.log ⟨level, text, context⟩) = (Except.ok value, after) ↔ _
  simp

@[simp]
theorem not_fails_log (level : Log.Level) (text : String) (context : Log.Context)
    (session : Session) (problem : Failure) :
    ¬Fails (Action.log level text context) session problem := by
  rintro ⟨⟩

@[simp]
theorem not_fails_logAll (messages : List Log.Record) (session : Session) (problem : Failure) :
    ¬Fails (Action.logAll messages) session problem := by
  rintro ⟨⟩

@[simp]
theorem returns_ite_iff (test : Prop) [Decidable test] (first second : ExceptT ε (StateM Session) α)
    (session after : Session) (value : α) :
    Returns (if test then first else second) session value after ↔
      test ∧ Returns first session value after ∨ ¬test ∧ Returns second session value after := by
  split <;> simp_all

@[simp]
theorem fails_ite_iff (test : Prop) [Decidable test] (first second : ExceptT ε (StateM Session) α)
    (session : Session) (problem : ε) :
    Fails (if test then first else second) session problem ↔
      test ∧ Fails first session problem ∨ ¬test ∧ Fails second session problem := by
  split <;> simp_all

/-! ## Rule files and directories -/

/-- A text that does not compile is the only one whose compiling fails. -/
@[simp]
theorem fails_compileRules_iff [Text.CharacterNames] (content : List Char) (session : Session)
    (problem : Failure) :
    Fails (compileRules content) session problem ↔
      Ruleset.Unreadable content ∧ .regex .codeTooLarge = problem := by
  rcases Ruleset.ofContent_cases content with unreadable | ⟨rules, compiled, _⟩
  · simp only [compileRules, unreadable.broken, fails_bind_iff, not_fails_logAll, false_or,
      fails_throw_iff, unreadable, true_and]
    constructor
    · rintro ⟨_, _, _, same⟩
      exact same
    · rintro rfl
      exact ⟨(), _, returns_logAll _ session, rfl⟩
  · simp [compileRules, compiled, Ruleset.not_unreadable compiled]

/-- A session once the reading of a rule file has been announced in it. -/
def Session.reading (session : Session) (path : Files.Path) (encoding : Value) : Session :=
  session.log
    ⟨.debug, "Reading rule file", [("path", .text path.toText), ("encoding", encoding)]⟩

theorem fails_loadRules_iff [Text.CharacterNames] [Files.OtherCodecs] (path : Files.Path)
    (encoding : Value) (session : Session) (problem : Failure) :
    Fails (loadRules path encoding) session problem ↔
      encodingName encoding = .error problem ∨
        ∃ name, encodingName encoding = .ok name ∧
          (Failure.ofFile path ((session.reading path encoding).files.read path) = .error problem ∨
            ∃ bytes,
              Failure.ofFile path ((session.reading path encoding).files.read path) = .ok bytes ∧
                (decodeAs name bytes = .error problem ∨
                  ∃ text, decodeAs name bytes = .ok text ∧
                    Ruleset.Unreadable (Files.dropMark text) ∧
                    .regex .codeTooLarge = problem)) := by
  simp [loadRules, readRules, readBytes, Session.reading, and_assoc]

namespace CommandLine

@[simp]
theorem returns_ofAction_iff (action : Action α) (session after : Session) (value : α) :
    Returns (Work.ofAction action) session value after ↔ Returns action session value after := by
  constructor
  · intro returned
    unfold Returns at *
    simp only [Work.ofAction, ExceptT.run_mk, StateT.run_bind] at returned
    cases first : (ExceptT.run action).run session with
    | mk outcome between =>
      rw [first] at returned
      cases outcome with
      | error problem => cases returned
      | ok other =>
        cases returned
        rfl
  · exact returns_ofAction

@[simp]
theorem fails_ofAction_iff (action : Action α) (session : Session) (trouble : Trouble) :
    Fails (Work.ofAction action) session trouble ↔
      ∃ cause, Fails action session cause ∧ .failure cause = trouble := by
  unfold Fails
  simp only [Work.ofAction, ExceptT.run_mk, StateT.run_bind]
  cases first : (ExceptT.run action).run session with
  | mk outcome between =>
    exact mapError_eq_error_iff outcome .failure trouble

/-- A rule file has to be named by a text. -/
theorem fails_configuredRules [Text.CharacterNames] [Files.OtherCodecs] (settings : Settings)
    (session : Session)
    (noText : ∀ written, settings.get "ignoreparser.rules.file" .null ≠ .text written) :
    Fails (configuredRules settings) session (.failure .wrongType) := by
  unfold configuredRules
  cases found : settings.get "ignoreparser.rules.file" .null with
  | text written => exact absurd found (noText written)
  | _ => exact (fails_throw_iff session _ _).mpr rfl

end CommandLine
end IgnoreRules
