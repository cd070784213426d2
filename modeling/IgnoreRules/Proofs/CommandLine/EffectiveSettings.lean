import IgnoreRules.CommandLine.Outcome
import IgnoreRules.Proofs.Settings.Loads
import IgnoreRules.Proofs.Settings.Variables
import IgnoreRules.Settings.YamlReader

/-!
# The settings that a command line works with

Each of the five settings follows its option; where that is not given, the last variable for it;
where there is none, the file of settings; and where that does not say, what is built in. An option
or a variable for one setting has no effect on another, although all options share one document and
all variables another: a group that stands there empty says nothing.
-/

namespace IgnoreRules.CommandLine

open Files (FileSystem)
open Settings (Content UserFile Tells Decides holding startOf)

/-- A setting that a run reads. -/
inductive Setting
  | ruleFile
  | encoding
  | includeDirectories
  | level
  | logFile
  deriving DecidableEq

namespace Setting

def group : Setting → String
  | .ruleFile | .encoding => "rules"
  | .includeDirectories => "scan"
  | .level | .logFile => "logging"

def name : Setting → String
  | .ruleFile => "file"
  | .encoding => "encoding"
  | .includeDirectories => "include_directories"
  | .level => "level"
  | .logFile => "file"

def key (setting : Setting) : String :=
  "ignoreparser." ++ setting.group ++ "." ++ setting.name

/-- The names on the way to a setting. -/
def names (setting : Setting) : List String := ["ignoreparser", setting.group, setting.name]

/-- What the option of a setting implies, if it is given. -/
def option? (arguments : Arguments) : Setting → Option Value
  | .ruleFile => (given? arguments.rules).map .text
  | .encoding => (given? arguments.encoding).map .text
  | .includeDirectories => if arguments.withDirectories then some (.bool true) else none
  | .level => if arguments.debug then some (.text "DEBUG") else none
  | .logFile => (given? arguments.logFile).map .text

def builtIn : Setting → Value
  | .ruleFile => .text ".gitignore"
  | .encoding => .text "utf-8"
  | .includeDirectories => .bool false
  | .level => .text "INFO"
  | .logFile => .null

/-- A variable is for a setting. -/
def IsFor (entry : String × String) (setting : Setting) : Prop :=
  Environment.Gives entry.1 setting.group setting.name

/-- The document of a file of settings has a value for a setting. -/
def InDocument (parts? : Option ValueGraph) (setting : Setting) (value : Value) : Prop :=
  ∃ parts, parts? = some parts ∧ (Content.graph parts).Shows setting.names value ∧ value ≠ .null

/-- The value of a setting by option, variable, document and what is built in. -/
inductive Effective (arguments : Arguments) (environment : Environment)
    (parts? : Option ValueGraph) (setting : Setting) : Value → Prop
  | byOption {value : Value} (given : setting.option? arguments = some value) :
      Effective arguments environment parts? setting value
  | byVariable {value : Value} (notGiven : setting.option? arguments = none)
      (last : environment.LastGives setting.group setting.name value) :
      Effective arguments environment parts? setting value
  | byDocument {value : Value} (notGiven : setting.option? arguments = none)
      (unset : ∀ entry ∈ environment, ¬IsFor entry setting)
      (written : InDocument parts? setting value) :
      Effective arguments environment parts? setting value
  | builtIn (notGiven : setting.option? arguments = none)
      (unset : ∀ entry ∈ environment, ¬IsFor entry setting)
      (silent : ∀ value, ¬InDocument parts? setting value) :
      Effective arguments environment parts? setting setting.builtIn

theorem path_key (setting : Setting) : Settings.path setting.key = setting.names := by
  cases setting <;> decide

/-! ## What each source says -/

/-- What the sources hold in a run. -/
def heldIn (arguments : Arguments) (environment : Environment) (parts? : Option ValueGraph) :
    Source → Option Content :=
  fun source => if source = .commandLine then some (.tree arguments.values)
    else startOf parts? environment source

variable (arguments : Arguments) (environment : Environment) (parts? : Option ValueGraph)
  (setting : Setting) (value : Value)

theorem at?_values : arguments.values.at? setting.names = setting.option? arguments := by
  simp only [Arguments.values, option?]
  cases setting with
  | ruleFile => cases given? arguments.rules <;> cases given? arguments.encoding <;> rfl
  | encoding => cases given? arguments.rules <;> cases given? arguments.encoding <;> rfl
  | includeDirectories => cases arguments.withDirectories <;> rfl
  | level => cases arguments.debug <;> cases given? arguments.logFile <;> rfl
  | logFile => cases arguments.debug <;> cases given? arguments.logFile <;> rfl

theorem option?_ne_null (given : setting.option? arguments = some value) : value ≠ .null := by
  rintro rfl
  cases setting <;> simp [option?] at given

theorem tells_commandLine_iff :
    Tells (heldIn arguments environment parts?) setting.names .commandLine value ↔
      setting.option? arguments = some value := by
  constructor
  · rintro ⟨content, held, shows, _⟩
    obtain rfl := Option.some.inj held
    rw [← Content.document_eq_some_iff, Content.document, at?_values] at shows
    exact shows
  · intro given
    refine ⟨.tree arguments.values, rfl, ?_, option?_ne_null arguments setting value given⟩
    rw [← Content.document_eq_some_iff, Content.document, at?_values]
    exact given

theorem tells_environment_iff :
    Tells (heldIn arguments environment parts?) setting.names .environment value ↔
      environment.LastGives setting.group setting.name value := by
  have found : (Settings.underRoot (.map environment.groups)).at? setting.names = some value ↔
      environment.LastGives setting.group setting.name value :=
    Environment.at?_groups_iff environment setting.group setting.name value
  rw [← found]
  constructor
  · rintro ⟨content, held, shows, _⟩
    have given : Settings.variables? environment = some content := held
    simp only [Settings.variables?] at given
    split at given
    · cases given
    · obtain rfl := Option.some.inj given
      rw [← Content.document_eq_some_iff] at shows
      exact shows
  · intro reached
    have filled : environment.groups ≠ [] := by
      intro empty
      rw [empty] at reached
      cases reached
    obtain ⟨_, entry, _, _, _, same, _⟩ := found.mp reached
    refine ⟨.tree (Settings.underRoot (.map environment.groups)), ?_, ?_, ?_⟩
    · have given : Settings.variables? environment =
          some (.tree (Settings.underRoot (.map environment.groups))) := by
        simp [Settings.variables?, filled]
      exact given
    · rw [← Content.document_eq_some_iff]
      exact reached
    · rw [← same]
      exact Environment.valueOf_ne_null entry.2

theorem tells_userFile_iff :
    Tells (heldIn arguments environment parts?) setting.names .userFile value ↔
      InDocument parts? setting value := by
  cases parts? with
  | none =>
    constructor
    · rintro ⟨_, ⟨⟩, _⟩
    · rintro ⟨_, ⟨⟩, _⟩
  | some parts =>
    constructor
    · rintro ⟨_, ⟨⟩, shows, notNull⟩
      exact ⟨parts, rfl, shows, notNull⟩
    · rintro ⟨_, ⟨⟩, shows, notNull⟩
      exact ⟨.graph parts, rfl, shows, notNull⟩

theorem at?_defaults : Settings.defaults.at? setting.names = some setting.builtIn := by
  cases setting <;> rfl

theorem tells_defaults_iff :
    Tells (heldIn arguments environment parts?) setting.names .defaults value ↔
      value = setting.builtIn ∧ value ≠ .null := by
  constructor
  · rintro ⟨content, held, shows, notNull⟩
    obtain rfl := Option.some.inj held
    rw [← Content.document_eq_some_iff, Content.document, at?_defaults] at shows
    exact ⟨(Option.some.inj shows).symm, notNull⟩
  · rintro ⟨rfl, notNull⟩
    refine ⟨.tree Settings.defaults, rfl, ?_, notNull⟩
    rw [← Content.document_eq_some_iff]
    exact at?_defaults setting

/-! ## The strongest source -/

section
variable {arguments environment parts? setting}

theorem notGiven_of_silent
    (silent : ∀ value,
      ¬Tells (heldIn arguments environment parts?) setting.names .commandLine value) :
    setting.option? arguments = none := by
  cases given : setting.option? arguments with
  | none => rfl
  | some value =>
    exact absurd ((tells_commandLine_iff arguments environment parts? setting value).mpr given)
      (silent value)

theorem unset_of_silent
    (silent : ∀ value,
      ¬Tells (heldIn arguments environment parts?) setting.names .environment value) :
    ∀ entry ∈ environment, ¬IsFor entry setting := by
  intro entry member isFor
  obtain ⟨value, last⟩ := Environment.exists_lastGives environment entry member isFor
  exact silent value ((tells_environment_iff arguments environment parts? setting value).mpr last)

end

/-- What the look-up of a setting decides for is what the setting is to be. -/
theorem effective_of_decides (substitute found : Value)
    (decides : Decides (heldIn arguments environment parts?) setting.names substitute found) :
    ∃ value, Effective arguments environment parts? setting value ∧
      found = if value.isNull then substitute else value := by
  cases decides with
  | @said source _ given strongest =>
    have whole : found = if found.isNull then substitute else found := by
      obtain ⟨_, _, _, notNull⟩ := given
      rw [if_neg]
      rwa [Settings.isNull_iff]
    refine ⟨found, ?_, whole⟩
    cases source with
    | override =>
      -- Nothing is loaded there in a run.
      obtain ⟨_, ⟨⟩, _⟩ := given
    | commandLine =>
      exact .byOption ((tells_commandLine_iff arguments environment parts? setting found).mp given)
    | environment =>
      refine .byVariable (notGiven_of_silent (strongest .commandLine (by decide))) ?_
      exact (tells_environment_iff arguments environment parts? setting found).mp given
    | userFile =>
      refine .byDocument (notGiven_of_silent (strongest .commandLine (by decide)))
        (unset_of_silent (strongest .environment (by decide))) ?_
      exact (tells_userFile_iff arguments environment parts? setting found).mp given
    | defaults =>
      obtain ⟨rfl, _⟩ :=
        (tells_defaults_iff arguments environment parts? setting found).mp given
      refine .builtIn (notGiven_of_silent (strongest .commandLine (by decide)))
        (unset_of_silent (strongest .environment (by decide))) fun value written => ?_
      exact strongest .userFile (by decide) value
        ((tells_userFile_iff arguments environment parts? setting value).mpr written)
  | unsaid silent =>
    -- The defaults have every setting, so this is one for which null is built in.
    refine ⟨setting.builtIn, .builtIn (notGiven_of_silent (silent .commandLine))
      (unset_of_silent (silent .environment)) fun value written => ?_, ?_⟩
    · exact silent .userFile value
        ((tells_userFile_iff arguments environment parts? setting value).mpr written)
    · have absent := silent .defaults setting.builtIn
      rw [tells_defaults_iff] at absent
      have null : setting.builtIn = .null := by
        by_contra notNull
        exact absent ⟨rfl, notNull⟩
      rw [if_pos ((Settings.isNull_iff _).mpr null)]

variable {arguments environment parts? setting value}

theorem inDocument_unique {other : Value} (written : InDocument parts? setting value)
    (again : InDocument parts? setting other) : value = other := by
  obtain ⟨parts, rfl, shows, _⟩ := written
  obtain ⟨_, same, showsAgain, _⟩ := again
  obtain rfl := Option.some.inj same
  rw [← Content.document_eq_some_iff] at shows showsAgain
  exact Option.some.inj (shows.symm.trans showsAgain)

theorem Effective.unique {other : Value}
    (effective : Effective arguments environment parts? setting value)
    (again : Effective arguments environment parts? setting other) : value = other := by
  have found := fun value => Environment.at?_groups_iff environment setting.group setting.name value
  have unseen {value : Value} (last : environment.LastGives setting.group setting.name value)
      (unset : ∀ entry ∈ environment, ¬IsFor entry setting) : False := by
    obtain ⟨_, entry, _, rfl, gives, _⟩ := last
    exact unset entry (by simp) gives
  cases effective with
  | byOption given =>
    cases again with
    | byOption givenAgain => exact Option.some.inj (given.symm.trans givenAgain)
    | byVariable notGiven _ => simp [given] at notGiven
    | byDocument notGiven _ _ => simp [given] at notGiven
    | builtIn notGiven _ _ => simp [given] at notGiven
  | byVariable notGiven last =>
    cases again with
    | byOption given => simp [notGiven] at given
    | byVariable _ lastAgain =>
      exact Option.some.inj (((found _).mpr last).symm.trans ((found _).mpr lastAgain))
    | byDocument _ unset _ => exact (unseen last unset).elim
    | builtIn _ unset _ => exact (unseen last unset).elim
  | byDocument notGiven unset written =>
    cases again with
    | byOption given => simp [notGiven] at given
    | byVariable _ last => exact (unseen last unset).elim
    | byDocument _ _ writtenAgain => exact inDocument_unique written writtenAgain
    | builtIn _ _ silent => exact absurd written (silent _)
  | builtIn notGiven unset silent =>
    cases again with
    | byOption given => simp [notGiven] at given
    | byVariable _ last => exact (unseen last unset).elim
    | byDocument _ _ written => exact absurd written (silent _)
    | builtIn _ _ _ => rfl

/-- The variables for a setting. -/
def variablesFor (setting : Setting) (environment : Environment) : Environment :=
  environment.filter fun entry =>
    Environment.settingOf? entry.1 = some (setting.group, setting.name)

theorem variablesFor_eq_nil_iff :
    setting.variablesFor environment = [] ↔ ∀ entry ∈ environment, ¬IsFor entry setting := by
  simp [variablesFor, List.filter_eq_nil_iff, IsFor, Environment.settingOf?_eq_some_iff]

/-- Options and variables for other settings have no effect. -/
theorem Effective.congr {otherArguments : Arguments} {otherEnvironment : Environment}
    (effective : Effective arguments environment parts? setting value)
    (sameOption : setting.option? otherArguments = setting.option? arguments)
    (sameVariables : setting.variablesFor otherEnvironment = setting.variablesFor environment) :
    Effective otherArguments otherEnvironment parts? setting value := by
  have unset : (∀ entry ∈ environment, ¬IsFor entry setting) →
      ∀ entry ∈ otherEnvironment, ¬IsFor entry setting := by
    rw [← variablesFor_eq_nil_iff, ← variablesFor_eq_nil_iff, sameVariables]
    exact id
  cases effective with
  | byOption given => exact .byOption (sameOption.trans given)
  | byVariable notGiven last =>
    refine .byVariable (sameOption.trans notGiven) ?_
    rw [← Environment.lastGives_filter] at last ⊢
    rw [variablesFor, variablesFor] at sameVariables
    rwa [sameVariables]
  | byDocument notGiven absent written =>
    exact .byDocument (sameOption.trans notGiven) (unset absent) written
  | builtIn notGiven absent silent =>
    exact .builtIn (sameOption.trans notGiven) (unset absent) silent

/-- What a look-up of a setting returns. -/
theorem get_effective (arguments : Arguments) (environment : Environment)
    (parts? : Option ValueGraph) (setting : Setting) :
    ∃ value, Effective arguments environment parts? setting value ∧ ∀ substitute,
      (holding (heldIn arguments environment parts?)).get setting.key substitute =
        if value.isNull then substitute else value := by
  have decided (substitute : Value) : ∃ value,
      Effective arguments environment parts? setting value ∧
        (holding (heldIn arguments environment parts?)).get setting.key substitute =
          if value.isNull then substitute else value := by
    apply effective_of_decides
    rw [← path_key]
    exact Settings.get_decides _ setting.key substitute
  obtain ⟨value, effective, _⟩ := decided .null
  refine ⟨value, effective, fun substitute => ?_⟩
  obtain ⟨other, again, same⟩ := decided substitute
  rw [same, again.unique effective]

end Setting

/-! ## The settings of a run -/

section

variable [Settings.Reader]

theorem settingsOf_eq_ok_iff (world : World) (arguments : Arguments) (settings : Settings) :
    settingsOf world arguments = .ok settings ↔
      arguments.checkPaths world.files = .ok () ∧
        ∃ parts?, UserFile world.files arguments.config parts? ∧
          settings = holding (Setting.heldIn arguments world.environment parts?) := by
  have covered (parts? : Option ValueGraph) :
      (holding (startOf parts? world.environment)).load .commandLine arguments.values.at? =
        holding (Setting.heldIn arguments world.environment parts?) :=
    Settings.load_holding _ .commandLine (.tree arguments.values)
  simp only [settingsOf, bind_eq_ok_iff, mapError_eq_ok_iff, Settings.create_eq_ok_iff]
  constructor
  · rintro ⟨⟨⟩, passed, _, ⟨parts?, given, rfl⟩, ⟨⟩⟩
    exact ⟨passed, parts?, given, covered parts?⟩
  · rintro ⟨passed, parts?, given, rfl⟩
    exact ⟨(), passed, _, ⟨parts?, given, rfl⟩, congrArg Except.ok (covered parts?)⟩

theorem userFile_unique {files : FileSystem} {file : Option String}
    {parts? other? : Option ValueGraph} (given : UserFile files file parts?)
    (again : UserFile files file other?) : parts? = other? := by
  cases given with
  | unnamed unnamed =>
    cases again with
    | unnamed _ => rfl
    | named named _ => simp [unnamed] at named
  | named named inFile =>
    cases again with
    | unnamed unnamed => simp [named] at unnamed
    | named other inOther =>
      obtain rfl := Option.some.inj (named.symm.trans other)
      exact congrArg some (inFile.unique inOther)

/-- With a good file of settings, or none, each setting is what its option says, or else the last
variable for it, the file or what is built in; and nothing that is given for other settings changes
it. -/
theorem settings_by_precedence (world : World) (arguments : Arguments)
    (parts? : Option ValueGraph) (passed : arguments.checkPaths world.files = .ok ())
    (given : UserFile world.files arguments.config parts?) :
    ∃ settings, settingsOf world arguments = .ok settings ∧ ∀ setting : Setting,
      (∃ value, setting.Effective arguments world.environment parts? value ∧ ∀ substitute,
        settings.get setting.key substitute = if value.isNull then substitute else value) ∧
      ∀ (other : World) (otherArguments : Arguments) (otherSettings : Settings),
        settingsOf other otherArguments = .ok otherSettings →
        UserFile other.files otherArguments.config parts? →
        setting.option? otherArguments = setting.option? arguments →
        setting.variablesFor other.environment = setting.variablesFor world.environment →
        ∀ substitute, otherSettings.get setting.key substitute =
          settings.get setting.key substitute := by
  refine ⟨_, (settingsOf_eq_ok_iff world arguments _).mpr ⟨passed, parts?, given, rfl⟩, ?_⟩
  intro setting
  refine ⟨setting.get_effective arguments world.environment parts?, ?_⟩
  intro other otherArguments otherSettings loaded sameFile sameOption sameVariables substitute
  obtain ⟨_, other?, otherFile, rfl⟩ := (settingsOf_eq_ok_iff other otherArguments _).mp loaded
  obtain rfl := userFile_unique sameFile otherFile
  obtain ⟨value, effective, got⟩ := setting.get_effective arguments world.environment parts?
  obtain ⟨value', effective', got'⟩ :=
    setting.get_effective otherArguments other.environment parts?
  obtain rfl := (effective.congr sameOption sameVariables).unique effective'
  rw [got, got']

end

/-- The option for the rule file, a variable for the log and a file for the encoding, each of them
with something weaker beneath. -/
theorem settings_by_precedence_layers :
    let content := "ignoreparser: \x7brules: \x7bfile: x, encoding: latin-1\x7d\x7d\n".toUTF8
    let files : FileSystem := ⟨.directory [("s.yaml", .file content)], [], "/", []⟩
    let environment := [("IGNOREPARSER_RULES_FILE", "y"), ("IGNOREPARSER_LOGGING_LEVEL", "ERROR")]
    let arguments : Arguments := ⟨some "s.yaml", some "z", none, none, false, .check ["a"]⟩
    ∃ parts settings, UserFile files (some "s.yaml") (some parts) ∧
      settingsOf ⟨files, environment, ""⟩ arguments = .ok settings ∧
      settings.get "ignoreparser.rules.file" .null = .text "z" ∧
      settings.get "ignoreparser.logging.level" .null = .text "ERROR" ∧
      settings.get "ignoreparser.rules.encoding" .null = .text "latin-1" := by
  intro content files environment arguments
  have shown : ((Yaml.read (Settings.inputOf content)).toOption.any fun parts => parts.isMap &&
      (parts.at? (Setting.names .encoding)).any (Value.sameKey · (.text "latin-1"))) = true := by
    decide +kernel
  simp only [Option.any_eq_true, toOption_eq_some_iff, Bool.and_eq_true,
    Value.sameKey_text_iff] at shown
  obtain ⟨parts, parsed, isMap, _, latin, rfl⟩ := shown
  have given : UserFile files (some "s.yaml") (some parts) :=
    .named rfl ⟨content, ⟨rfl, rfl, rfl⟩, parsed, isMap⟩
  obtain ⟨settings, loaded, followed⟩ :=
    settings_by_precedence ⟨files, environment, ""⟩ arguments (some parts) rfl given
  have got (setting : Setting) (value : Value) (notNull : value.isNull = false)
      (effective : setting.Effective arguments environment (some parts) value) :
      settings.get setting.key .null = value := by
    obtain ⟨⟨found, same, got⟩, _⟩ := followed setting
    obtain rfl := same.unique effective
    rw [got, notNull]
    rfl
  refine ⟨parts, settings, given, loaded, ?_, ?_, ?_⟩
  · exact got .ruleFile _ rfl (.byOption rfl)
  · refine got .level _ rfl (.byVariable rfl
      ⟨environment.take 1, ("IGNOREPARSER_LOGGING_LEVEL", "ERROR"), [], rfl, ?_, rfl, by simp⟩)
    exact (Environment.settingOf?_eq_some_iff _ _ _).mp rfl
  · refine got .encoding _ rfl (.byDocument rfl ?_ ⟨parts, rfl, ?_, by simp⟩)
    · rw [← Setting.variablesFor_eq_nil_iff]
      rfl
    · exact (Content.document_eq_some_iff (.graph parts) _ _).mp latin

end IgnoreRules.CommandLine
