import IgnoreRules.Proofs.Outcome
import IgnoreRules.Proofs.Settings.Lookup
import IgnoreRules.Settings.YamlReader
import Mathlib.Data.List.Induction

/-!
# Settings after any number of loads

Each load gives one source a whole document, or fails and changes nothing. So after any sequence of
loads a source holds the document of the last one into it that succeeded, and a look-up sees these
documents and nothing else.
-/

namespace IgnoreRules.Settings

open Files (FileSystem Path)

/-! ## What is in a file of settings -/

/-- There is a file, which holds some bytes. -/
inductive Stores (files : FileSystem) (written : String) (bytes : ByteArray) : Prop
  | intro {path : Path} (expanded : files.expandHome (.ofText written) = .ok path)
      (isFile : files.isFile path = .ok true) (read : files.read path = .ok bytes)

theorem Stores.unique {files : FileSystem} {written : String} {bytes other : ByteArray}
    (stores : Stores files written bytes) (again : Stores files written other) :
    bytes = other := by
  obtain ⟨expanded, _, read⟩ := stores
  obtain ⟨expandedToo, _, readToo⟩ := again
  obtain rfl := Except.ok.inj (expanded.symm.trans expandedToo)
  exact Except.ok.inj (read.symm.trans readToo)

section

variable [Reader]

/-- A file holds a document that is a map, as the graph of its values. -/
def InFile (files : FileSystem) (written : String) (parts : ValueGraph) : Prop :=
  ∃ bytes, Stores files written bytes ∧ Reader.read bytes = .ok parts ∧ parts.isMap = true

theorem InFile.unique {files : FileSystem} {written : String} {parts other : ValueGraph}
    (inFile : InFile files written parts) (again : InFile files written other) :
    parts = other := by
  obtain ⟨bytes, stores, parsed, _⟩ := inFile
  obtain ⟨_, storesToo, parsedToo, _⟩ := again
  obtain rfl := stores.unique storesToo
  exact Except.ok.inj (parsed.symm.trans parsedToo)

theorem documentOf_eq_ok_iff (written : String) (bytes : ByteArray) (document : Document) :
    documentOf written bytes = .ok document ↔
      ∃ parts, Reader.read bytes = .ok parts ∧ parts.isMap = true ∧ parts.at? = document := by
  unfold documentOf
  cases Reader.read bytes with
  | error problem => simp
  | ok parts =>
    cases isMap : parts.isMap with
    | true => simp [isMap]
    | false => simp [isMap]

theorem documentIn_eq_ok_iff (files : FileSystem) (written : String) (document : Document) :
    documentIn files written = .ok document ↔
      ∃ parts, InFile files written parts ∧ parts.at? = document := by
  simp only [documentIn, Failure.ofFile, bind_eq_ok_iff, mapError_eq_ok_iff, passed_eq_ok_iff,
    documentOf_eq_ok_iff]
  constructor
  · rintro ⟨path, expanded, _, isFile, rfl, bytes, read, parts, parsed, isMap, same⟩
    exact ⟨parts, ⟨bytes, ⟨expanded, isFile, read⟩, parsed, isMap⟩, same⟩
  · rintro ⟨parts, ⟨bytes, ⟨expanded, isFile, read⟩, parsed, isMap⟩, same⟩
    exact ⟨_, expanded, true, isFile, rfl, bytes, read, parts, parsed, isMap, same⟩

/-! ## Loads -/

/-- A load of data or of a file into a source. The files are those of the time of the load. -/
inductive Load
  | data (content : Content) (source : Source)
  | file (files : FileSystem) (written : String) (source : Source)

namespace Load

def source : Load → Source
  | .data _ source => source
  | .file _ _ source => source

/-- A load succeeds, with a content. -/
inductive Gives : Load → Content → Prop
  | data (content : Content) (source : Source) : Gives (.data content source) content
  | file {files : FileSystem} {written : String} {parts : ValueGraph} (source : Source)
      (read : InFile files written parts) : Gives (.file files written source) (.graph parts)

/-- A load fails. Only one of a file can. -/
inductive Fails : Load → Prop
  | file {files : FileSystem} {written : String} {problem : Failure} (source : Source)
      (failed : documentIn files written = .error problem) : Fails (.file files written source)

end Load

/-- The settings that a caller goes on with after a load. -/
def after (settings : Settings) : Load → Settings
  | .data content source => settings.load source content.document
  | .file files written source =>
    match settings.loadFile files written source with
    | .ok loaded => loaded
    | .error _ => settings

def afterAll (settings : Settings) (loads : List Load) : Settings := loads.foldl after settings

theorem afterAll_append (settings : Settings) (first second : List Load) :
    settings.afterAll (first ++ second) = (settings.afterAll first).afterAll second :=
  List.foldl_append

theorem afterAll_cons (settings : Settings) (load : Load) (loads : List Load) :
    settings.afterAll (load :: loads) = (settings.after load).afterAll loads := rfl

theorem Load.gives_or_fails (load : Load) : (∃ content, load.Gives content) ∨ load.Fails := by
  cases load with
  | data content source => exact .inl ⟨_, .data content source⟩
  | file files written source =>
    cases outcome : documentIn files written with
    | error problem => exact .inr (.file source outcome)
    | ok document =>
      obtain ⟨parts, read, _⟩ := (documentIn_eq_ok_iff files written document).mp outcome
      exact .inl ⟨_, .file source read⟩

/-- A load that succeeds replaces the document of its source. -/
theorem after_gives (settings : Settings) (load : Load) (content : Content)
    (gives : load.Gives content) :
    settings.after load = settings.load load.source content.document := by
  cases gives with
  | data content source => rfl
  | @file files written parts source read =>
    have loaded := (documentIn_eq_ok_iff files written parts.at?).mpr ⟨parts, read, rfl⟩
    simp only [after, loadFile, loaded]
    rfl

/-- A load that fails leaves the settings as they are. -/
theorem after_fails (settings : Settings) (load : Load) (fails : load.Fails) :
    settings.after load = settings := by
  cases fails with
  | @file files written problem source failed =>
    simp only [after, loadFile, failed]
    rfl

/-! ## The last load into each source -/

/-- What a source holds after loads: the content of the last one into it that succeeded, or what it
held at the start. -/
inductive Holds (start : Source → Option Content) (loads : List Load) (source : Source) :
    Option Content → Prop
  | loaded {before behind : List Load} {load : Load} {content : Content}
      (split : loads = before ++ load :: behind) (into : load.source = source)
      (gives : load.Gives content)
      (last : ∀ later ∈ behind, later.source = source → later.Fails) :
      Holds start loads source (some content)
  | kept (untouched : ∀ load ∈ loads, load.source = source → load.Fails) :
      Holds start loads source (start source)

theorem Holds.skip {start : Source → Option Content} {loads : List Load} {source : Source}
    {content : Option Content} (holds : Holds start loads source content) (load : Load)
    (other : load.source = source → load.Fails) :
    Holds start (loads ++ [load]) source content := by
  cases holds with
  | @loaded before behind earlier content split into gives last =>
    refine @Holds.loaded _ _ _ _ before (behind ++ [load]) earlier _ ?_ into gives ?_
    · rw [split, List.append_assoc, List.cons_append]
    · intro later member
      rcases List.mem_append.mp member with among | added
      · exact last later among
      · rw [List.mem_singleton.mp added]
        exact other
  | kept untouched =>
    refine .kept ?_
    intro later member
    rcases List.mem_append.mp member with among | added
    · exact untouched later among
    · rw [List.mem_singleton.mp added]
      exact other

omit [Reader] in
theorem load_holding (held : Source → Option Content) (source : Source) (content : Content) :
    (holding held).load source content.document =
      holding fun other => if other = source then some content else held other := by
  simp only [load, holding, Settings.mk.injEq]
  funext other
  split <;> rfl

theorem exists_held (start : Source → Option Content) (loads : List Load) :
    ∃ held, (∀ source, Holds start loads source (held source)) ∧
      (holding start).afterAll loads = holding held := by
  -- The last load comes on top of what all loads before it have left.
  induction loads using List.reverseRecOn with
  | nil => exact ⟨start, fun source => .kept (by simp), rfl⟩
  | append_singleton loads load ih =>
    obtain ⟨held, holds, reached⟩ := ih
    rw [afterAll_append, reached, afterAll_cons]
    rcases load.gives_or_fails with ⟨content, gives⟩ | fails
    · refine ⟨fun source => if source = load.source then some content else held source, ?_, ?_⟩
      · intro source
        by_cases into : source = load.source
        · simp only [into, if_true]
          exact .loaded rfl rfl gives (by simp)
        · simp only [into, if_false]
          exact (holds source).skip load fun same => absurd same.symm into
      · rw [after_gives _ load content gives, load_holding]
        rfl
    · refine ⟨held, fun source => (holds source).skip load fun _ => fails, ?_⟩
      rw [after_fails _ load fails]
      rfl

/-! ## The settings at the start -/

/-- A file of settings holds the given document, if one is named. -/
inductive UserFile (files : FileSystem) : Option String → Option ValueGraph → Prop
  | unnamed {file : Option String} (unnamed : file.filter (· != "") = none) :
      UserFile files file none
  | named {file : Option String} {written : String} {parts : ValueGraph}
      (named : file.filter (· != "") = some written) (read : InFile files written parts) :
      UserFile files file (some parts)

/-- What the variables give, if any of them gives a setting. -/
def variables? (environment : Environment) : Option Content :=
  if environment.groups.isEmpty then none
  else some (.tree (underRoot (.map environment.groups)))

/-- What each source holds when settings are created. -/
def startOf (parts? : Option ValueGraph) (environment : Environment) : Source → Option Content
  | .defaults => some (.tree defaults)
  | .userFile => parts?.map .graph
  | .environment => variables? environment
  | .commandLine => none
  | .override => none

omit [Reader] in
theorem document?_eq (environment : Environment) :
    environment.document? = (variables? environment).map Content.document := by
  simp only [Environment.document?, variables?]
  split <;> rfl

omit [Reader] in
theorem loadEnvironment_startOf (parts? : Option ValueGraph) (environment : Environment) :
    (holding (startOf parts? [])).loadEnvironment environment =
      holding (startOf parts? environment) := by
  rw [loadEnvironment, document?_eq]
  cases given : variables? environment with
  | none =>
    simp only [Option.map_none, holding, Settings.mk.injEq]
    funext source
    cases source with
    | environment => simp only [startOf, given]; rfl
    | _ => rfl
  | some content =>
    simp only [Option.map_some, load_holding]
    congr 1
    funext source
    cases source with
    | environment => exact given.symm
    | _ => rfl

omit [Reader] in
theorem initial_eq : initial = holding (startOf none []) := by
  simp only [initial, load, holding, Settings.mk.injEq]
  funext source
  cases source <;> rfl

theorem create_eq_ok_iff (files : FileSystem) (file : Option String) (environment : Environment)
    (settings : Settings) :
    create files file environment = .ok settings ↔
      ∃ parts?, UserFile files file parts? ∧ settings = holding (startOf parts? environment) := by
  simp only [create]
  cases named : file.filter (· != "") with
  | none =>
    simp only [pure_bind, initial_eq, loadEnvironment_startOf]
    constructor
    · rintro ⟨⟩
      exact ⟨none, .unnamed named, rfl⟩
    · rintro ⟨_, given, rfl⟩
      cases given with
      | unnamed _ => rfl
      | named other _ => simp [named] at other
  | some written =>
    simp only [loadFile, bind_eq_ok_iff, documentIn_eq_ok_iff]
    have loaded (parts : ValueGraph) :
        (initial.load .userFile parts.at?).loadEnvironment environment =
          holding (startOf (some parts) environment) := by
      rw [← loadEnvironment_startOf, initial_eq]
      have replaced := load_holding (startOf none []) .userFile (.graph parts)
      simp only [Content.document] at replaced
      rw [replaced]
      congr 2
      funext source
      cases source <;> rfl
    constructor
    · rintro ⟨_, ⟨_, ⟨parts, read, rfl⟩, ⟨⟩⟩, ⟨⟩⟩
      exact ⟨some parts, .named named read, loaded parts⟩
    · rintro ⟨_, given, rfl⟩
      cases given with
      | unnamed absent => simp [named] at absent
      | @named _ other same read =>
        obtain rfl := Option.some.inj (named.symm.trans same)
        exact ⟨_, ⟨_, ⟨_, read, rfl⟩, rfl⟩, congrArg Except.ok (loaded _)⟩

/-- Only the file can keep settings from being created. -/
theorem create_eq_error_iff (files : FileSystem) (file : Option String) (environment : Environment)
    (problem : Failure) :
    create files file environment = .error problem ↔
      ∃ written, file.filter (· != "") = some written ∧
        documentIn files written = .error problem := by
  simp only [create]
  cases file.filter (· != "") with
  | none =>
    simp only [pure_bind]
    simp [pure, Except.pure]
  | some written => simp [loadFile, bind_eq_error_iff, pure, Except.pure]

/-! ## Laws of loads -/

theorem afterAll_fails (settings : Settings) (before behind : List Load) (load : Load)
    (fails : load.Fails) :
    settings.afterAll (before ++ load :: behind) = settings.afterAll (before ++ behind) := by
  rw [afterAll_append, afterAll_cons, after_fails _ load fails, ← afterAll_append]

omit [Reader] in
theorem load_comm (settings : Settings) (first second : Source) (document other : Document)
    (apart : first ≠ second) :
    (settings.load first document).load second other =
      (settings.load second other).load first document := by
  simp only [load, Settings.mk.injEq]
  funext source
  by_cases atFirst : source = first
  · have notSecond : source ≠ second := fun same => apart (atFirst.symm.trans same)
    simp [atFirst, atFirst ▸ notSecond]
  · simp [atFirst]

theorem after_comm (settings : Settings) (first second : Load)
    (apart : first.source ≠ second.source) :
    (settings.after first).after second = (settings.after second).after first := by
  rcases first.gives_or_fails with ⟨content, firstGives⟩ | firstFails
  · rcases second.gives_or_fails with ⟨other, secondGives⟩ | secondFails
    · rw [after_gives settings first content firstGives, after_gives _ second other secondGives,
        after_gives settings second other secondGives, after_gives _ first content firstGives,
        load_comm settings first.source second.source _ _ apart]
    · rw [after_fails _ second secondFails, after_fails settings second secondFails]
  · rw [after_fails settings first firstFails, after_fails _ first firstFails]

/-- Settings that differ in one source at most. -/
def SameBut (source : Source) (left right : Settings) : Prop :=
  ∀ other, other ≠ source → left.document other = right.document other

theorem sameBut_after (settings : Settings) (load : Load) :
    SameBut load.source (settings.after load) settings := by
  intro other apart
  rcases load.gives_or_fails with ⟨content, gives⟩ | fails
  · rw [after_gives settings load content gives]
    simp only [Settings.load, if_neg apart]
  · rw [after_fails settings load fails]

theorem SameBut.after {source : Source} {left right : Settings} (same : SameBut source left right)
    (load : Load) : SameBut source (left.after load) (right.after load) := by
  intro other apart
  rcases load.gives_or_fails with ⟨content, gives⟩ | fails
  · rw [after_gives left load content gives, after_gives right load content gives]
    simp only [Settings.load, same other apart]
  · rw [after_fails left load fails, after_fails right load fails, same other apart]

theorem SameBut.afterAll {source : Source} {left right : Settings}
    (same : SameBut source left right) (loads : List Load) :
    SameBut source (left.afterAll loads) (right.afterAll loads) := by
  induction loads generalizing left right with
  | nil => exact same
  | cons load loads ih => exact ih (same.after load)

/-- A load that succeeds covers whatever its source held. -/
theorem SameBut.covered {left right : Settings} {load : Load} {content : Content}
    (same : SameBut load.source left right) (gives : load.Gives content) :
    left.after load = right.after load := by
  rw [after_gives left load content gives, after_gives right load content gives]
  simp only [Settings.load, Settings.mk.injEq]
  funext other
  by_cases into : other = load.source
  · simp [into]
  · simp [into, same other into]

/-- Whatever loads follow on the creation of settings, a look-up decides by what the last successful
load left in each source. So failed loads do not count, loads into different sources can change
places, and a load covers all earlier ones into its source. -/
theorem lookups_after_loads (files : FileSystem) (file : Option String) (environment : Environment)
    (settings : Settings) (created : create files file environment = .ok settings) :
    ∃ parts?, UserFile files file parts? ∧
      (∀ loads, ∃ held, (∀ source, Holds (startOf parts? environment) loads source (held source)) ∧
        ∀ key substitute, Decides held (path key) substitute
          ((settings.afterAll loads).get key substitute)) ∧
      (∀ before load behind, load.Fails →
        settings.afterAll (before ++ load :: behind) = settings.afterAll (before ++ behind)) ∧
      (∀ before first second behind, first.source ≠ second.source →
        settings.afterAll (before ++ first :: second :: behind) =
          settings.afterAll (before ++ second :: first :: behind)) ∧
      ∀ before first between second behind content, first.source = second.source →
        second.Gives content →
          settings.afterAll (before ++ first :: between ++ second :: behind) =
            settings.afterAll (before ++ between ++ second :: behind) := by
  obtain ⟨parts?, given, rfl⟩ := (create_eq_ok_iff files file environment settings).mp created
  refine ⟨parts?, given, ?_, ?_, ?_, ?_⟩
  · intro loads
    obtain ⟨held, holds, reached⟩ := exists_held (startOf parts? environment) loads
    refine ⟨held, holds, fun key substitute => ?_⟩
    rw [reached]
    exact get_decides held key substitute
  · intro before load behind fails
    exact afterAll_fails _ before behind load fails
  · intro before first second behind apart
    simp only [afterAll_append, afterAll_cons, after_comm _ first second apart]
  · intro before first between second behind content same gives
    simp only [afterAll_append, afterAll_cons]
    -- What the first load changes stays within its source until the second one covers it.
    have unlike := sameBut_after ((holding (startOf parts? environment)).afterAll before) first
    have covered := (same ▸ unlike.afterAll between).covered gives
    rw [covered]

end

/-- A file that is missing leaves the value that was loaded before. -/
theorem lookups_after_loads_missing :
    let content := "ignoreparser:\n  rules:\n    file: x\n".toUTF8
    let files : FileSystem := ⟨.directory [("s.yaml", .file content)], [], "/", []⟩
    let loaded : Value := underRoot (.ofFields [("rules", .ofFields [("file", .text "y")])])
    ∃ settings, create files (some "s.yaml") [("IGNOREPARSER_RULES_FILE", "z")] = .ok settings ∧
      (Load.file files "t.yaml" .override).Fails ∧
      (settings.afterAll [.data (.tree loaded) .override, .file files "t.yaml" .override]).get
        "ignoreparser.rules.file" .null = .text "y" := by
  intro content files loaded
  have succeeds : (create files (some "s.yaml") [("IGNOREPARSER_RULES_FILE", "z")]).isOk = true := by
    decide +kernel
  cases created : create files (some "s.yaml") [("IGNOREPARSER_RULES_FILE", "z")] with
  | error problem => simp [created, Except.isOk, Except.toBool] at succeeds
  | ok settings =>
    have missing : documentIn files "t.yaml" = .error (.settings .notFound "t.yaml") := by rfl
    have fails : (Load.file files "t.yaml" .override).Fails := .file .override missing
    obtain ⟨_, _, _, unchanged, _⟩ := lookups_after_loads files (some "s.yaml") _ settings created
    refine ⟨settings, rfl, fails, ?_⟩
    have same := unchanged [.data (.tree loaded) .override] _ [] fails
    simp only [List.cons_append, List.nil_append] at same
    rw [same]
    rfl

end IgnoreRules.Settings
