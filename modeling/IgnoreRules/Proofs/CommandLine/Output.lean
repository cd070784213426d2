import IgnoreRules.Files.Standard
import IgnoreRules.Proofs.CommandLine.Outcomes
import IgnoreRules.Proofs.Log.Contexts
import IgnoreRules.Proofs.Scan.Loading
import IgnoreRules.Proofs.Scan.Logging
import IgnoreRules.Settings.YamlReader
import IgnoreRules.Text.AsciiNames

/-!
# What a run prints

A command works out all its lines before the first of them is printed, so a run that fails, in
whatever place, prints none of them. What it shows instead is its log and then one report. A check
that returns 0 has printed a line for each path it was given, labelled by the rules that its rule
file held when it was read.
-/

namespace IgnoreRules.CommandLine

/-- The line of a path whose verdict is known. -/
def labelled (denied : Bool) (path : String) : String :=
  (if denied then "ignored" else "kept") ++ "\t" ++ path ++ "\n"

/-! ## The log -/

theorem signs_openLog (world : World) (settings : Settings) (session : Session)
    (opened : openLog world settings = .ok session) :
    session.Signs world.time Log.Logger.defaultName := by
  cases created : Log.Logger.create Log.Logger.defaultName
      (settings.get "ignoreparser.logging.level" (.text "INFO")) with
  | error problem =>
    simp only [openLog, created] at opened
    cases problem with
    | unknownName name => cases opened
    | wrongType => cases opened
  | ok logger =>
    have name : logger.name = Log.Logger.defaultName := by
      obtain ⟨chosen, _, made⟩ := (Log.Logger.create_eq_ok_iff ..).mp created
      rw [← made]
    simp only [openLog, created, pure_bind] at opened
    -- A log file changes neither the time nor the name.
    split at opened
    · cases opened
      exact ⟨rfl, name⟩
    split at opened
    · split at opened
      · cases opened
        exact ⟨rfl, name⟩
      · split at opened
        · cases opened
        · cases opened
    · cases opened

theorem errors_of_reported (outcome : Outcome) (trouble : Trouble)
    (reported : outcome.ending = .reported trouble) :
    outcome.errors = outcome.logged ++ ("Error: " ++ trouble.message ++ "\n") := by
  rw [Outcome.errors, reported]

section

variable [Text.CharacterNames] [Files.OtherCodecs] [Files.WalkLimit]

/-- However a command ends, its log consists of lines of one hand. -/
theorem carryOut_logged (session : Session) (settings : Settings) (command : Command)
    (time name : String) (signs : session.Signs time name) :
    ∃ records : List Log.Record, (carryOut session settings command).logged =
      String.join (records.map fun record => record.line time name) :=
  ⟨_, (keeps_commandLines settings command session signs).shown⟩

/-! ## Commands -/

omit [Files.WalkLimit] in
/-- Rules that are loaded are those of a rule file that is named. -/
theorem names_of_returns (settings : Settings) (session after : Session) (written : String)
    (rules : Ruleset)
    (returned : Returns (configuredRules settings) session (written, rules) after) :
    settings.get "ignoreparser.rules.file" .null = .text written ∧
      ∃ content, SaysWhenRead session (.ofText written)
          (settings.get "ignoreparser.rules.encoding" .null) content ∧
        Ruleset.ofContent content = .ok rules := by
  unfold configuredRules at returned
  split at returned
  next name named =>
    simp only [returns_bind_iff, returns_ofAction_iff, returns_files_iff,
      returns_lift_iff] at returned
    obtain ⟨isFile, _, ⟨_, _, ⟨rfl, rfl⟩, _, rfl⟩, returned⟩ := returned
    split at returned
    · simp at returned
    · simp only [returns_bind_iff, returns_ofAction_iff, returns_loadRules_iff, returns_pure_iff,
        Prod.mk.injEq] at returned
      obtain ⟨_, _, ⟨content, spoken, compiled, _⟩, _, _, _, ⟨rfl, rfl⟩, _⟩ := returned
      exact ⟨named, content, spoken, compiled⟩
  next =>
    simp at returned

/-- A check that finishes has loaded its rules and labelled its paths by them. -/
theorem carryOut_check (session : Session) (settings : Settings) (paths : List String)
    (finished : (carryOut session settings (.check paths)).ending = .finished) :
    ∃ written rules after, Returns (configuredRules settings) session (written, rules) after ∧
      (carryOut session settings (.check paths)).output =
        String.join (paths.map fun path => labelled (rules.denies path.toList) path) := by
  rcases returns_or_fails (commandLines settings (.check paths)) session with
    ⟨lines, after, returned⟩ | ⟨trouble, failed⟩
  · have printed := (prints_of_returns returned).output
    obtain ⟨⟨written, rules⟩, between, loaded, rest⟩ := (returns_bind_iff _ _ _ _ _).mp returned
    obtain ⟨rfl, _⟩ := (returns_pure_iff _ _ _ _).mp rest
    refine ⟨written, rules, between, loaded, printed.trans ?_⟩
    rw [List.map_map]
    rfl
  · rw [(carryOut_of_fails session settings _ trouble failed).1] at finished
    exact absurd finished (Ending.ofTrouble_ne_finished trouble)

/-! ## The ways a run goes -/

variable [Settings.Reader]

/-- A run leaves with its command line, stops before its command, or carries its command out. -/
theorem run_cases (world : World) (words : List String) :
    (∃ exit, Arguments.ofWords words = .error exit ∧ run world words = leave world exit) ∨
    (∃ arguments trouble, Arguments.ofWords words = .ok arguments ∧
      run world words = ⟨.ofTrouble trouble, [], "", none, world.files⟩) ∨
    ∃ arguments settings session, Arguments.ofWords words = .ok arguments ∧
      settingsOf world arguments = .ok settings ∧ openLog world settings = .ok session ∧
      run world words = carryOut session settings arguments.command := by
  cases read : Arguments.ofWords words with
  | error exit =>
    exact .inl ⟨exit, rfl, run_of_refused world words exit read⟩
  | ok arguments =>
    cases prepared : prepare world arguments with
    | error trouble =>
      refine .inr (.inl ⟨arguments, trouble, rfl, ?_⟩)
      simp only [run, read, prepared]
    | ok ready =>
      obtain ⟨settings, loaded, rest⟩ := (bind_eq_ok_iff _ _ _).mp prepared
      obtain ⟨session, opened, made⟩ := (bind_eq_ok_iff _ _ _).mp rest
      obtain rfl := Except.ok.inj made
      refine .inr (.inr ⟨arguments, settings, session, rfl, loaded, opened, ?_⟩)
      simp only [run, read, prepared]

theorem run_logged (world : World) (words : List String) :
    ∃ records : List Log.Record, (run world words).logged =
      String.join (records.map fun record => record.line world.time Log.Logger.defaultName) := by
  rcases run_cases world words with ⟨exit, _, left⟩ | ⟨_, trouble, _, stopped⟩ |
    ⟨_, settings, session, _, _, opened, carried⟩
  · exact ⟨[], by rw [left]; rfl⟩
  · exact ⟨[], by rw [stopped]; rfl⟩
  · rw [carried]
    exact carryOut_logged session settings _ _ _ (signs_openLog world settings session opened)

/-! ## The output -/

/-- The rules that a run applies: those of its rule file, in the session that its settings open. -/
inductive AppliesRules (world : World) (arguments : Arguments) (rules : Ruleset) : Prop
  | ofFile {settings : Settings} {session : Session} {written : String} {content : List Char}
      (loaded : settingsOf world arguments = .ok settings)
      (opened : openLog world settings = .ok session)
      (named : settings.get "ignoreparser.rules.file" .null = .text written)
      (spoken : SaysWhenRead session (.ofText written)
        (settings.get "ignoreparser.rules.encoding" .null) content)
      (compiled : Ruleset.ofContent content = .ok rules)

/-- The exit code 1 comes without output. -/
theorem run_silent (world : World) (words : List String) (failed : (run world words).code = 1) :
    (run world words).printed = [] := by
  rcases run_cases world words with ⟨exit, _, left⟩ | ⟨_, trouble, _, stopped⟩ |
    ⟨_, settings, session, _, _, _, carried⟩
  · rw [left] at failed
    -- Leaving with the command line takes other codes.
    cases exit with
    | usage => cases failed
    | help => cases failed
    | version => cases failed
  · rw [stopped]
  · rw [carried] at failed ⊢
    -- Lines are printed only once the command has finished, which takes the code 0.
    apply (carryOut_unfinished session settings _ _).2
    intro finished
    rw [Outcome.code, finished] at failed
    cases failed

/-- A run that ends with 1 prints nothing, and if it returns, its report is the last thing that it
shows, behind the lines of its log. A check that returns 0 has printed one line for each path, in
their order, with the label that the rules of its rule file give it. -/
theorem run_prints_verdicts [StandardOutput] (world : World) (words : List String) :
    ((run world words).code = 1 → (run world words).written = "") ∧
    ((run world words).close = .returned 1 → (run world words).written = "" ∧
      ∃ trouble, (run world words).ending = .reported trouble ∧
        ∃ records : List Log.Record, (run world words).errors =
          String.join (records.map fun record => record.line world.time Log.Logger.defaultName) ++
            ("Error: " ++ trouble.message ++ "\n")) ∧
    ∀ arguments paths, Arguments.ofWords words = .ok arguments →
      arguments.command = .check paths → (run world words).close = .returned 0 →
        ∃ rules, AppliesRules world arguments rules ∧
          (run world words).written =
            String.join (paths.map fun path => labelled (rules.denies path.toList) path) := by
  have silent (failed : (run world words).code = 1) : (run world words).written = "" :=
    Outcome.written_of_silent (run_silent world words failed)
  refine ⟨silent, ?_, ?_⟩
  · intro returned
    obtain ⟨trouble, reported⟩ := (Outcome.close_eq_returned_one_iff _).mp returned
    obtain ⟨records, logged⟩ := run_logged world words
    refine ⟨silent (by rw [Outcome.code, reported]), trouble, reported, records, ?_⟩
    rw [errors_of_reported _ trouble reported, logged]
  · intro arguments paths read check returned
    obtain ⟨finished, takes⟩ := (Outcome.close_eq_returned_zero_iff _).mp returned
    rw [Outcome.written_of_takes takes]
    rcases run_cases world words with ⟨exit, refused, _⟩ | ⟨_, trouble, _, stopped⟩ |
      ⟨_, settings, session, again, loaded, opened, carried⟩
    · cases read.symm.trans refused
    · rw [stopped] at finished
      exact absurd finished (Ending.ofTrouble_ne_finished trouble)
    · obtain rfl := Except.ok.inj (read.symm.trans again)
      rw [carried, check] at finished ⊢
      obtain ⟨written, rules, after, returned, printed⟩ :=
        carryOut_check session settings paths finished
      obtain ⟨named, content, spoken, compiled⟩ :=
        names_of_returns settings session after written rules returned
      exact ⟨rules, .ofFile loaded opened named spoken compiled, printed⟩

end

/-- A run without its rule file prints nothing, and one with it a line for each path. -/
theorem run_prints_verdicts_twice :
    let _ := utf8Output
    let world : World :=
      ⟨⟨.directory [(".gitignore", .file "a*\n!ab".toUTF8)], [], "/", []⟩, [], ""⟩
    (run world ["-r", "none", "check", "ax"]).close = .returned 1 ∧
      (run world ["-r", "none", "check", "ax"]).written = "" ∧
      ∃ rules, AppliesRules world ⟨none, none, none, none, false, .check ["ax", "ab", "ax"]⟩ rules ∧
        (run world ["check", "ax", "ab", "ax"]).written =
          labelled (rules.denies "ax".toList) "ax" ++ labelled (rules.denies "ab".toList) "ab" ++
            labelled (rules.denies "ax".toList) "ax" ∧
        (run world ["check", "ax", "ab", "ax"]).written =
          "ignored\tax\nkept\tab\nignored\tax\n" := by
  intro output world
  obtain ⟨_, silent, _⟩ := run_prints_verdicts world ["-r", "none", "check", "ax"]
  obtain ⟨_, _, printed⟩ := run_prints_verdicts world ["check", "ax", "ab", "ax"]
  have reported : (run world ["-r", "none", "check", "ax"]).close = .returned 1 := by
    decide +kernel
  have returned : (run world ["check", "ax", "ab", "ax"]).close = .returned 0 := by decide +kernel
  obtain ⟨rules, applied, written⟩ := printed _ ["ax", "ab", "ax"] rfl rfl returned
  refine ⟨reported, (silent reported).1, rules, applied, written.trans ?_, by decide +kernel⟩
  simp [String.join]

end IgnoreRules.CommandLine
