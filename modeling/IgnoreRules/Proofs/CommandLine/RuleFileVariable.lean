import IgnoreRules.Files.Standard
import IgnoreRules.Proofs.CommandLine.EffectiveSettings
import IgnoreRules.Proofs.CommandLine.Outcomes
import IgnoreRules.Proofs.CommandLine.Reading
import IgnoreRules.Settings.YamlReader
import IgnoreRules.Text.AsciiNames

/-!
# A rule file that a variable names

The rule file can be named by an option and by a variable. The option keeps the text as it is; the
variable first reads it as a truth value or a number, and only what is neither stays a text. A
setting of another type is no name of a file, and a run that meets one breaks off. So both ways of
naming a rule file come to the same for texts that stay texts, and for others only where the run
with the option does not finish either.
-/

namespace IgnoreRules.CommandLine

open Files (FileSystem)
open Settings (holding)

/-! ## What a run makes of its settings -/

section
variable {left right : Settings}

theorem openLog_congr (files : FileSystem) (environment other : Environment) (time : String)
    (sameLevel : ∀ substitute, left.get Setting.level.key substitute =
      right.get Setting.level.key substitute)
    (sameFile : ∀ substitute, left.get Setting.logFile.key substitute =
      right.get Setting.logFile.key substitute) :
    openLog ⟨files, environment, time⟩ left = openLog ⟨files, other, time⟩ right := by
  have level : left.get "ignoreparser.logging.level" (.text "INFO") =
      right.get "ignoreparser.logging.level" (.text "INFO") := sameLevel _
  have file : left.get "ignoreparser.logging.file" .null =
      right.get "ignoreparser.logging.file" .null := sameFile _
  simp only [openLog, level, file]

/-- A run reads no settings besides the five. -/
theorem carryOut_congr [Text.CharacterNames] [Files.OtherCodecs] [Files.WalkLimit]
    (session : Session) (command : Command)
    (same : ∀ (setting : Setting) substitute, left.get setting.key substitute =
      right.get setting.key substitute) :
    carryOut session left command = carryOut session right command := by
  have rules : left.get "ignoreparser.rules.file" .null =
      right.get "ignoreparser.rules.file" .null := same .ruleFile _
  have encoding : left.get "ignoreparser.rules.encoding" .null =
      right.get "ignoreparser.rules.encoding" .null := same .encoding _
  have directories : left.get "ignoreparser.scan.include_directories" (.bool false) =
      right.get "ignoreparser.scan.include_directories" (.bool false) := same .includeDirectories _
  simp only [carryOut, commandLines, configuredRules, scanLines, rules, encoding, directories]

end

section

variable [Text.CharacterNames] [Files.OtherCodecs] [Files.WalkLimit]

/-- No command is carried out without a text that names the rule file. -/
theorem carryOut_wrongType (session : Session) (settings : Settings) (command : Command)
    (noText : ∀ name, settings.get Setting.ruleFile.key .null ≠ .text name) :
    (carryOut session settings command).ending = .broken .wrongType ∧
      (carryOut session settings command).output = "" := by
  have failed : Fails (commandLines settings command) session (.failure .wrongType) := by
    unfold commandLines
    rw [fails_bind_iff]
    exact .inl (fails_configuredRules settings session noText)
  obtain ⟨broken, silent⟩ := carryOut_of_fails session settings command _ failed
  exact ⟨broken, Outcome.output_of_silent silent⟩

end

/-! ## The variable and the option -/

/-- A variable that gives a text as it is written. -/
theorem valueOf_text (text name : String) (given : Environment.valueOf text = .text name) :
    name = text := by
  unfold Environment.valueOf at given
  simp only at given
  split at given
  · cases given
  split at given
  · cases given
  cases whole : Number.readInt? text.toList with
  | some number => simp [whole] at given
  | none =>
    cases decimal : Number.readDouble? text.toList with
    | some number => simp [whole, decimal] at given
    | none => simpa [whole, decimal, eq_comm] using given

/-- The variable that names the rule file. -/
def ruleFileVariable : String := "IGNOREPARSER_RULES_FILE"

section

variable [Text.CharacterNames] [Files.OtherCodecs] [Files.WalkLimit] [Settings.Reader]

/-- A run of a check with the rule file named by a variable. -/
def checkByVariable (files : FileSystem) (time : String) (before behind : Environment)
    (file : String) (paths : List String) : Outcome :=
  run ⟨files, before ++ (ruleFileVariable, file) :: behind, time⟩ ("check" :: paths)

/-- A run of a check with the rule file named by an option. -/
def checkByOption (files : FileSystem) (time : String) (environment : Environment)
    (file : String) (paths : List String) : Outcome :=
  run ⟨files, environment, time⟩ ("--rules" :: file :: "check" :: paths)

end

theorem isFor_ruleFileVariable (setting : Setting) (value : String) :
    Setting.IsFor (ruleFileVariable, value) setting ↔ setting = .ruleFile := by
  have read : Environment.settingOf? ruleFileVariable = some ("rules", "file") := by rfl
  unfold Setting.IsFor
  rw [← Environment.settingOf?_eq_some_iff, read]
  cases setting <;> decide

theorem variablesFor_others (setting : Setting) (other : setting ≠ .ruleFile)
    (before behind : Environment) (file : String) :
    setting.variablesFor (before ++ (ruleFileVariable, file) :: behind) =
      setting.variablesFor (before ++ behind) := by
  have skipped : Environment.settingOf? ruleFileVariable ≠ some (setting.group, setting.name) := by
    rw [ne_eq, Environment.settingOf?_eq_some_iff]
    exact mt (isFor_ruleFileVariable setting file).mp other
  simp [Setting.variablesFor, List.filter_append, skipped]

/-- The arguments of a check without options, or with that for the rule file. -/
def checkArguments (rules : Option String) (paths : List String) : Arguments :=
  ⟨none, rules, none, none, false, .check paths⟩

theorem settingsOf_check [Settings.Reader] (world : World) (rules : Option String)
    (paths : List String) :
    settingsOf world (checkArguments rules paths) =
      .ok (holding (Setting.heldIn (checkArguments rules paths) world.environment none)) := by
  rw [settingsOf_eq_ok_iff]
  exact ⟨rfl, none, .unnamed rfl, rfl⟩

section
variable (before behind : Environment) (file : String) (paths : List String)

/-- The settings of a check with the variable. -/
def variableSettings : Settings :=
  holding (Setting.heldIn (checkArguments none paths)
    (before ++ (ruleFileVariable, file) :: behind) none)

/-- The settings of a check with the option. -/
def optionSettings : Settings :=
  holding (Setting.heldIn (checkArguments (some file) paths) (before ++ behind) none)

theorem get_others (setting : Setting) (other : setting ≠ .ruleFile) (substitute : Value) :
    (variableSettings before behind file paths).get setting.key substitute =
      (optionSettings before behind file paths).get setting.key substitute := by
  have sameOption : setting.option? (checkArguments (some file) paths) =
      setting.option? (checkArguments none paths) := by
    cases setting with
    | ruleFile => exact absurd rfl other
    | _ => rfl
  have sameVariables := variablesFor_others setting other before behind file
  obtain ⟨value, effective, got⟩ := Setting.get_effective (checkArguments none paths)
    (before ++ (ruleFileVariable, file) :: behind) none setting
  obtain ⟨same, again, gotAgain⟩ := Setting.get_effective (checkArguments (some file) paths)
    (before ++ behind) none setting
  -- Neither the option nor the variable for the rule file has a say in another setting.
  obtain rfl := (effective.congr sameOption sameVariables.symm).unique again
  rw [variableSettings, optionSettings, got, gotAgain]

/-- The variable gives its value, whatever type it has. -/
theorem get_ruleFile_variable
    (others : ∀ entry ∈ before ++ behind, ¬Setting.IsFor entry .ruleFile) (substitute : Value) :
    (variableSettings before behind file paths).get Setting.ruleFile.key substitute =
      Environment.valueOf file := by
  obtain ⟨value, effective, got⟩ := Setting.get_effective (checkArguments none paths)
    (before ++ (ruleFileVariable, file) :: behind) none .ruleFile
  have last : Environment.LastGives (before ++ (ruleFileVariable, file) :: behind)
      (Setting.group .ruleFile) (Setting.name .ruleFile) (Environment.valueOf file) := by
    refine ⟨before, _, behind, rfl, (isFor_ruleFileVariable .ruleFile file).mpr rfl, rfl, ?_⟩
    intro later member
    exact others later (List.mem_append_right before member)
  obtain rfl := effective.unique (.byVariable rfl last)
  have notNull : ¬(Environment.valueOf file).isNull = true := by
    rw [Settings.isNull_iff]
    exact Environment.valueOf_ne_null file
  rw [variableSettings, got, if_neg notNull]

/-- The option gives its text. -/
theorem get_ruleFile_option (filled : file ≠ "") (substitute : Value) :
    (optionSettings before behind file paths).get Setting.ruleFile.key substitute =
      .text file := by
  obtain ⟨value, effective, got⟩ := Setting.get_effective (checkArguments (some file) paths)
    (before ++ behind) none .ruleFile
  have given : Setting.option? (checkArguments (some file) paths) .ruleFile =
      some (.text file) := by
    simp [Setting.option?, checkArguments, given?, filled]
  obtain rfl := effective.unique (.byOption given)
  rw [optionSettings, got]
  rfl

section

variable [Text.CharacterNames] [Files.OtherCodecs] [Files.WalkLimit]

/-- Where the variable gives a text, a command does the same with either. -/
theorem carryOut_variable_eq (session : Session) (command : Command) (filled : file ≠ "")
    (others : ∀ entry ∈ before ++ behind, ¬Setting.IsFor entry .ruleFile)
    (reads : Environment.valueOf file = .text file) :
    carryOut session (variableSettings before behind file paths) command =
      carryOut session (optionSettings before behind file paths) command := by
  apply carryOut_congr
  intro setting substitute
  by_cases ruleFile : setting = .ruleFile
  · rw [ruleFile, get_ruleFile_variable before behind file paths others,
      get_ruleFile_option before behind file paths filled, reads]
  · exact get_others before behind file paths setting ruleFile substitute

/-- Where it gives something else, no command finishes. -/
theorem carryOut_variable_iff (session : Session) (command : Command)
    (others : ∀ entry ∈ before ++ behind, ¬Setting.IsFor entry .ruleFile)
    (reads : Environment.valueOf file ≠ .text file) (settings : Settings) :
    (carryOut session (variableSettings before behind file paths) command).code =
        (carryOut session settings command).code ∧
      (carryOut session (variableSettings before behind file paths) command).output =
        (carryOut session settings command).output ↔
      (carryOut session settings command).ending ≠ .finished := by
  have noText (name : String) : (variableSettings before behind file paths).get
      Setting.ruleFile.key .null ≠ .text name := by
    rw [get_ruleFile_variable before behind file paths others]
    intro given
    obtain rfl := valueOf_text file name given
    exact reads given
  obtain ⟨broken, silent⟩ := carryOut_wrongType session _ command noText
  have failed : (carryOut session (variableSettings before behind file paths) command).code = 1 := by
    rw [Outcome.code, broken]
  rw [failed, silent]
  constructor
  · rintro ⟨code, _⟩ finished
    rw [Outcome.code, finished] at code
    cases code
  · intro unfinished
    obtain ⟨code, silent⟩ := carryOut_unfinished session settings command unfinished
    exact ⟨code.symm, (Outcome.output_of_silent silent).symm⟩

end

end

/-- With a rule file that a variable names, and no other variable for it, a check ends with the exit
code and the output of the check with the option if the variable gives a text, and otherwise only if
the check with the option does not finish either. -/
theorem check_byVariable_iff [Text.CharacterNames] [Files.OtherCodecs] [Files.WalkLimit]
    [Settings.Reader] (files : FileSystem) (time : String) (before behind : Environment)
    (file : String) (paths : List String) (filled : file ≠ "")
    (noOption : file.toList.head? ≠ some '-')
    (others : ∀ entry ∈ before ++ behind, ¬Setting.IsFor entry .ruleFile) :
    ((checkByVariable files time before behind file paths).code =
        (checkByOption files time (before ++ behind) file paths).code ∧
      (checkByVariable files time before behind file paths).output =
        (checkByOption files time (before ++ behind) file paths).output ↔
      Environment.valueOf file = .text file ∨
        (checkByOption files time (before ++ behind) file paths).ending ≠ .finished) ∧
    (Environment.valueOf file = .text file →
      checkByVariable files time before behind file paths =
        checkByOption files time (before ++ behind) file paths) := by
  have rulesRead := Arguments.ofWords_rules file "check" paths noOption (by decide)
  cases read : Arguments.ofWords ("check" :: paths) with
  | error exit =>
    rw [read] at rulesRead
    -- Both runs leave in the same way.
    have same : checkByVariable files time before behind file paths =
        checkByOption files time (before ++ behind) file paths := by
      simp only [checkByVariable, checkByOption, run, read, rulesRead]
      rfl
    have left : (checkByOption files time (before ++ behind) file paths).ending = .left exit := by
      simp only [checkByOption, run, rulesRead]
      rfl
    simp [same, left]
  | ok arguments =>
    obtain ⟨checked, rfl⟩ := Arguments.ofWords_check paths arguments read
    rw [read] at rulesRead
    have byVariable := run_of_settings ⟨files, before ++ (ruleFileVariable, file) :: behind, time⟩
      _ _ (variableSettings before behind file checked) read (settingsOf_check _ none checked)
    have byOption := run_of_settings ⟨files, before ++ behind, time⟩
      _ _ (optionSettings before behind file checked) rulesRead
      (settingsOf_check _ (some file) checked)
    have differ := get_others before behind file checked
    have sameLog := openLog_congr files (before ++ (ruleFileVariable, file) :: behind)
      (before ++ behind) time (differ .level (by decide)) (differ .logFile (by decide))
    unfold checkByVariable checkByOption
    rw [byVariable, byOption, sameLog]
    -- The log is opened with the same settings in both runs; only then the rule file is looked at.
    cases openLog ⟨files, before ++ behind, time⟩ (optionSettings before behind file checked) with
    | error trouble => simp [Ending.ofTrouble_ne_finished trouble]
    | ok session =>
      by_cases reads : Environment.valueOf file = .text file
      · have same := carryOut_variable_eq before behind file checked session (.check checked) filled
          others reads
        simp [same, reads]
      · have apart := carryOut_variable_iff before behind file checked session (.check checked)
          others reads (optionSettings before behind file checked)
        simp only [reads, false_or, false_implies, and_true]
        exact apart

/-- A file whose name stays a text. -/
theorem check_byVariable_text :
    let files : FileSystem := ⟨.directory [("rules", .file "a\n".toUTF8)], [], "/", []⟩
    checkByVariable files "" [] [] "rules" ["a"] = checkByOption files "" [] "rules" ["a"] ∧
      (checkByOption files "" [] "rules" ["a"]).output = "ignored\ta\n" := by
  intro files
  obtain ⟨_, same⟩ := check_byVariable_iff files "" [] [] "rules" ["a"] (by decide) (by decide)
    (by simp)
  exact ⟨same rfl, by decide +kernel⟩

/-- A file whose name is read as a truth value. -/
theorem check_byVariable_truth :
    let files : FileSystem := ⟨.directory [("1", .file "a\n".toUTF8)], [], "/", []⟩
    (checkByOption files "" [] "1" ["a"]).code = 0 ∧
      (checkByOption files "" [] "1" ["a"]).output = "ignored\ta\n" ∧
      (checkByVariable files "" [] [] "1" ["a"]).code = 1 ∧
      (checkByVariable files "" [] [] "1" ["a"]).output = "" := by
  decide +kernel

end IgnoreRules.CommandLine
