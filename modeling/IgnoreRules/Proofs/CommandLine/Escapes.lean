import IgnoreRules.Files.Standard
import IgnoreRules.Proofs.CommandLine.Outcomes
import IgnoreRules.Proofs.Files.Errors
import IgnoreRules.Proofs.Scan.Listing
import IgnoreRules.Proofs.Scan.Loading
import IgnoreRules.Proofs.Settings.Failing
import IgnoreRules.Settings.YamlReader
import IgnoreRules.Text.AsciiNames

/-!
# Failures that break a run off

A run reports what goes wrong, or it breaks off. It breaks off in four places: on the file of
settings, on the settings of the log, on the rule file and on the directory of a scan. Here is
stated for each of them on which inputs this happens, and no other run breaks off. What it prints
once it has finished can still be refused by its output.
-/

namespace IgnoreRules.CommandLine

open Files (FileError FileSystem Path)
open Files.Node (Shallow)

section

variable [Text.CharacterNames] [Files.OtherCodecs] [Files.WalkLimit] [Settings.Reader]

/-! ## Where a run breaks off -/

/-- Loading a file of settings breaks off: on a home directory that is not known, or on a document
that nests too deep for its reader or holds a scalar without a value. -/
inductive SettingsBreak (files : FileSystem) (written : String) : Failure → Prop
  | home {problem : FileError} (unknown : files.expandHome (.ofText written) = .error problem) :
      SettingsBreak files written (.file problem (.ofText written))
  | depth {bytes : ByteArray} (stores : Settings.Stores files written bytes)
      (deep : Settings.Reader.read bytes = .error .tooDeep) :
      SettingsBreak files written .tooDeep
  | scalar {bytes : ByteArray} {fault : Yaml.ScalarFault}
      (stores : Settings.Stores files written bytes)
      (faulty : Settings.Reader.read bytes = .error (.scalar fault))
      (silent : fault ≠ .unknownWord ∧ fault ≠ .noDigits) :
      SettingsBreak files written (.scalar fault)

/-- Opening the log breaks off, given the settings for its level and its file: on a value of the
wrong type, or on a path with a NUL. The file may be given as text or as bytes. -/
inductive LogBreak (files : FileSystem) (level file : Value) : Failure → Prop
  | level (noText : ∀ name, level ≠ .text name) (noNumber : ∀ number, level ≠ .int number)
      (noTruth : ∀ truth, level ≠ .bool truth) : LogBreak files level file .wrongType
  | file {threshold : Int} (accepted : Log.threshold level = .ok threshold)
      (given : file.isTruthy = true) (noText : ∀ written, file ≠ .text written)
      (noBytes : ∀ content, file ≠ .bytes content) : LogBreak files level file .wrongType
  | path {threshold : Int} {path : Path} (accepted : Log.threshold level = .ok threshold)
      (given : file.isTruthy = true) (named : namedFile? file = some path)
      (nul : (files.absolute path).holdsNul = true) :
      LogBreak files level file (.file .holdsNul (files.absolute path))

/-- Loading the rules breaks off, given the settings for their file and its encoding: on a value of
the wrong type, on the name of an encoding with a NUL, on a text in UTF-16 that could be read but
lacks its mark, on what another decoder fails on in such a way, or on a text with a pattern that has
no expression. -/
inductive RulesBreak (session : Session) (file encoding : Value) : Failure → Prop
  | file (noText : ∀ written, file ≠ .text written) : RulesBreak session file encoding .wrongType
  | encoding {written : String} (named : file = .text written)
      (isFile : session.files.isFile (.ofText written) = .ok true)
      (given : encoding ≠ .null) (noText : ∀ name, encoding ≠ .text name) :
      RulesBreak session file encoding .wrongType
  | codec {written name : String} (named : file = .text written)
      (isFile : session.files.isFile (.ofText written) = .ok true)
      (asked : encoding = .text name) (nul : '\x00' ∈ name.toList) :
      RulesBreak session file encoding (.codecHoldsNul name)
  | byteOrder {written name : String} {bytes : ByteArray} {text : List Char}
      (named : file = .text written)
      (isFile : session.files.isFile (.ofText written) = .ok true)
      (asked : encodingName encoding = .ok name)
      (codec : Files.Codec.ofName? name = some .utf16)
      -- The log file may be the rule file, which is read once the line about the reading is there.
      (read : (session.reading (.ofText written) encoding).files.read (.ofText written) = .ok bytes)
      (filled : bytes.data.toList ≠ []) (noMark : ¬Files.TellsByteOrder bytes.data.toList)
      (decodes : Files.decodeUnits false bytes.data.toList = .ok text) :
      RulesBreak session file encoding (.decoding .noByteOrderMark)
  | decoder {written name : String} {bytes : ByteArray}
      {decode : ByteArray → Except Files.DecodeError (List Char)}
      (named : file = .text written)
      (isFile : session.files.isFile (.ofText written) = .ok true)
      (asked : encodingName encoding = .ok name)
      (codec : Files.Codec.ofName? name = none)
      (other : Files.OtherCodecs.decoder? name = some decode)
      (read : (session.reading (.ofText written) encoding).files.read (.ofText written) = .ok bytes)
      (broken : decode bytes = .error .noByteOrderMark) :
      RulesBreak session file encoding (.decoding .noByteOrderMark)
  | text {written : String} {content : List Char} (named : file = .text written)
      (isFile : session.files.isFile (.ofText written) = .ok true)
      (spoken : SaysWhenRead session (.ofText written) encoding content)
      (unreadable : Ruleset.Unreadable content) :
      RulesBreak session file encoding (.regex .codeTooLarge)

/-- The directory that a scan lists: the one that is named, or the one that its rule file is for. -/
inductive Scans (files : FileSystem) (written : String) (directory : Option String) : Path → Prop
  | named {name : String} (named : given? directory = some name) :
      Scans files written directory (.ofText name)
  | ofRules {path : Path} (unnamed : given? directory = none)
      (expanded : files.expandHome (.ofText written) = .ok path) (noNul : path.holdsNul = false)
      (inside : (files.resolve path).names ≠ [])
      (found : files.isDirectory (.absolute (files.resolve path).names.dropLast) = .ok true) :
      Scans files written directory (.absolute (files.resolve path).names.dropLast)

/-- A session once the scan of a directory has been announced in it. -/
def scanning (session : Session) (path : Path) (selection : Selection) : Session :=
  session.log ⟨.info, "Scanning directory",
    [("directory", .text path.toText), ("show", .text selection.name)]⟩

/-- A scan breaks off: on the directory that its rule file is for, if its home directory is not
known or if it has a NUL, or on directories that lie too deep to be listed. -/
inductive ScanBreak (session : Session) (written : String) : Command → Failure → Prop
  | home {directory : Option String} {withDirectories : Bool} {selection : Selection}
      {problem : FileError} (unnamed : given? directory = none)
      (unknown : session.files.expandHome (.ofText written) = .error problem) :
      ScanBreak session written (.scan directory withDirectories selection)
        (.file problem (.ofText written))
  | path {directory : Option String} {withDirectories : Bool} {selection : Selection}
      {path : Path} (unnamed : given? directory = none)
      (expanded : session.files.expandHome (.ofText written) = .ok path)
      (nul : path.holdsNul = true) :
      ScanBreak session written (.scan directory withDirectories selection) (.file .holdsNul path)
  | depth {directory : Option String} {withDirectories : Bool} {selection : Selection}
      {path : Path} {entries : List (String × Files.Node)}
      (scans : Scans session.files written directory path)
      -- The log file may be in the directory, which is listed once the line about it is there.
      (found : (scanning session path selection).files.lookup (.ofText path.toText) =
        .ok (.directory entries))
      (deep : ¬Shallow (Path.ofText path.toText).leadLength (.directory entries)) :
      ScanBreak session written (.scan directory withDirectories selection) .tooDeep

/-- A run with some arguments breaks off, in the first place where something is in its way. -/
inductive Breaks (world : World) (arguments : Arguments) (cause : Failure) : Prop
  | settings {written : String} (passed : arguments.checkPaths world.files = .ok ())
      (named : given? arguments.config = some written)
      (breaks : SettingsBreak world.files written cause) : Breaks world arguments cause
  | log {settings : Settings} (loaded : settingsOf world arguments = .ok settings)
      (breaks : LogBreak world.files (settings.get "ignoreparser.logging.level" (.text "INFO"))
        (settings.get "ignoreparser.logging.file" .null) cause) : Breaks world arguments cause
  | rules {settings : Settings} {session : Session}
      (loaded : settingsOf world arguments = .ok settings)
      (opened : openLog world settings = .ok session)
      (breaks : RulesBreak session (settings.get "ignoreparser.rules.file" .null)
        (settings.get "ignoreparser.rules.encoding" .null) cause) : Breaks world arguments cause
  | scan {settings : Settings} {session after : Session} {written : String} {rules : Ruleset}
      (loaded : settingsOf world arguments = .ok settings)
      (opened : openLog world settings = .ok session)
      (compiled : Returns (configuredRules settings) session (written, rules) after)
      (breaks : ScanBreak after written arguments.command cause) : Breaks world arguments cause

/-! ## Settings -/

omit [Text.CharacterNames] [Files.OtherCodecs] [Files.WalkLimit] [Settings.Reader] in
theorem isReported_scalar (fault : Yaml.ScalarFault) :
    (Failure.scalar fault).isReported = false ↔ fault ≠ .unknownWord ∧ fault ≠ .noDigits := by
  cases fault <;> simp [Failure.isReported]

omit [Text.CharacterNames] [Files.OtherCodecs] [Files.WalkLimit] in
theorem documentIn_breaks_iff (files : FileSystem) (written : String) (cause : Failure) :
    Settings.documentIn files written = .error cause ∧ cause.isReported = false ↔
      SettingsBreak files written cause := by
  rw [Settings.documentIn_eq_error_iff]
  constructor
  · rintro ⟨⟨problem, _, rfl⟩ | escapes, silent⟩
    · cases silent
    -- Too long a path and bytes that are no text leave the load, and the run reports them.
    cases escapes with
    | home unknown => exact .home unknown
    | tooLong expanded long => cases silent
    | noText stores broken => cases silent
    | depth stores deep => exact .depth stores deep
    | @scalar bytes fault stores faulty =>
      exact .scalar stores faulty ((isReported_scalar fault).mp silent)
  · intro breaks
    cases breaks with
    | @home problem unknown =>
      exact ⟨.inr (.home unknown), FileSystem.expandHome_error files _ problem unknown⟩
    | depth stores deep => exact ⟨.inr (.depth stores deep), rfl⟩
    | @scalar bytes fault stores faulty silent =>
      exact ⟨.inr (.scalar stores faulty), (isReported_scalar fault).mpr silent⟩

omit [Text.CharacterNames] [Files.OtherCodecs] [Files.WalkLimit] in
theorem settingsOf_breaks_iff (world : World) (arguments : Arguments) (cause : Failure) :
    settingsOf world arguments = .error (.failure cause) ∧ cause.isReported = false ↔
      arguments.checkPaths world.files = .ok () ∧
        ∃ written, given? arguments.config = some written ∧
          SettingsBreak world.files written cause := by
  simp only [settingsOf, bind_eq_error_iff, mapError_eq_error_iff, mapError_eq_ok_iff,
    Settings.create_eq_error_iff]
  constructor
  · rintro ⟨⟨_, _, ⟨⟩⟩ | ⟨⟨⟩, passed, ⟨_, ⟨written, named, failed⟩, ⟨⟩⟩ | ⟨_, _, ⟨⟩⟩⟩, silent⟩
    exact ⟨passed, written, named, (documentIn_breaks_iff _ written cause).mp ⟨failed, silent⟩⟩
  · rintro ⟨passed, written, named, breaks⟩
    obtain ⟨failed, silent⟩ := (documentIn_breaks_iff _ written cause).mpr breaks
    exact ⟨.inr ⟨(), passed, .inl ⟨cause, ⟨written, named, failed⟩, rfl⟩⟩, silent⟩

/-! ## The log -/

section

omit [Text.CharacterNames] [Files.OtherCodecs] [Files.WalkLimit] [Settings.Reader]

theorem threshold_wrongType_iff (level : Value) :
    Log.threshold level = .error .wrongType ↔
      (∀ name, level ≠ .text name) ∧ (∀ number, level ≠ .int number) ∧
        ∀ truth, level ≠ .bool truth := by
  cases level with
  | text name => cases known : Log.Level.ofName? name <;> simp [Log.threshold, known]
  | _ => simp [Log.threshold]

theorem create_eq_map (level : Value) :
    Log.Logger.create Log.Logger.defaultName level =
      (Log.threshold level).map fun threshold => ⟨Log.Logger.defaultName, threshold, []⟩ := by
  unfold Log.Logger.create
  cases Log.threshold level <;> rfl

theorem openLog_rejected_iff (world : World) (settings : Settings) (problem : Log.ThresholdError)
    (rejected : Log.threshold (settings.get "ignoreparser.logging.level" (.text "INFO")) =
      .error problem) (cause : Failure) :
    openLog world settings = .error (.failure cause) ∧ cause.isReported = false ↔
      problem = .wrongType ∧ cause = .wrongType := by
  simp only [openLog, create_eq_map, rejected]
  cases problem with
  | unknownName name =>
    constructor
    · rintro ⟨⟨⟩, _⟩
    · rintro ⟨⟨⟩, _⟩
  | wrongType =>
    constructor
    · rintro ⟨⟨⟩, _⟩
      exact ⟨rfl, rfl⟩
    · rintro ⟨_, rfl⟩
      exact ⟨rfl, rfl⟩

theorem namedFile?_eq_none_iff (file : Value) :
    namedFile? file = none ↔
      (∀ written, file ≠ .text written) ∧ ∀ content, file ≠ .bytes content := by
  cases file <;> simp [namedFile?]

/-- Once its level is accepted, only the file of a log can break a run off. -/
theorem openLog_accepted_iff (world : World) (settings : Settings) (threshold : Int)
    (accepted : Log.threshold (settings.get "ignoreparser.logging.level" (.text "INFO")) =
      .ok threshold) (cause : Failure) :
    openLog world settings = .error (.failure cause) ∧ cause.isReported = false ↔
      (settings.get "ignoreparser.logging.file" .null).isTruthy = true ∧
        (namedFile? (settings.get "ignoreparser.logging.file" .null) = none ∧
          cause = .wrongType ∨
        ∃ path, namedFile? (settings.get "ignoreparser.logging.file" .null) = some path ∧
          (world.files.absolute path).holdsNul = true ∧
          cause = .file .holdsNul (world.files.absolute path)) := by
  simp only [openLog, create_eq_map, accepted, Except.map, pure_bind]
  cases given : (settings.get "ignoreparser.logging.file" .null).isTruthy with
  | false =>
    simp only [Bool.not_false, if_true, Bool.false_eq_true, false_and, iff_false]
    rintro ⟨⟨⟩, _⟩
  | true =>
    simp only [Bool.not_true, Bool.false_eq_true, if_false, true_and]
    cases named : namedFile? (settings.get "ignoreparser.logging.file" .null) with
    | none =>
      simp only [true_and, reduceCtorEq, false_and, exists_false, or_false]
      constructor
      · rintro ⟨⟨⟩, _⟩
        rfl
      · rintro rfl
        exact ⟨rfl, rfl⟩
    | some path =>
      simp only [reduceCtorEq, false_and, Option.some.injEq, exists_eq_left', false_or]
      constructor
      · rintro ⟨failed, silent⟩
        split at failed
        · cases failed
        next problem refused =>
          split at failed
          · cases failed
          next unreported =>
            cases failed
            obtain ⟨nul, rfl⟩ := (FileSystem.append_breaks_iff _ _ _ problem).mp
              ⟨refused, by simpa using unreported⟩
            exact ⟨nul, rfl⟩
      · rintro ⟨nul, rfl⟩
        obtain ⟨refused, silent⟩ :=
          (FileSystem.append_breaks_iff world.files _ "" .holdsNul).mpr ⟨nul, rfl⟩
        simp only [refused, silent]
        exact ⟨rfl, rfl⟩

theorem openLog_breaks_iff (world : World) (settings : Settings) (cause : Failure) :
    openLog world settings = .error (.failure cause) ∧ cause.isReported = false ↔
      LogBreak world.files (settings.get "ignoreparser.logging.level" (.text "INFO"))
        (settings.get "ignoreparser.logging.file" .null) cause := by
  have typed := threshold_wrongType_iff (settings.get "ignoreparser.logging.level" (.text "INFO"))
  cases level : Log.threshold (settings.get "ignoreparser.logging.level" (.text "INFO")) with
  | error problem =>
    rw [openLog_rejected_iff world settings problem level]
    rw [level, Except.error.injEq] at typed
    constructor
    · rintro ⟨wrong, rfl⟩
      obtain ⟨noText, noNumber, noTruth⟩ := typed.mp wrong
      exact .level noText noNumber noTruth
    · intro breaks
      cases breaks with
      | level noText noNumber noTruth => exact ⟨typed.mpr ⟨noText, noNumber, noTruth⟩, rfl⟩
      | file accepted _ _ _ => cases level.symm.trans accepted
      | path accepted _ _ _ => cases level.symm.trans accepted
  | ok threshold =>
    rw [openLog_accepted_iff world settings threshold level]
    rw [level] at typed
    constructor
    · rintro ⟨given, ⟨unnamed, rfl⟩ | ⟨path, named, nul, rfl⟩⟩
      · obtain ⟨noText, noBytes⟩ := (namedFile?_eq_none_iff _).mp unnamed
        exact .file level given noText noBytes
      · exact .path level given named nul
    · intro breaks
      cases breaks with
      | level noText noNumber noTruth => cases typed.mpr ⟨noText, noNumber, noTruth⟩
      | file _ given noText noBytes =>
        exact ⟨given, .inl ⟨(namedFile?_eq_none_iff _).mpr ⟨noText, noBytes⟩, rfl⟩⟩
      | path _ given named nul => exact ⟨given, .inr ⟨_, named, nul, rfl⟩⟩

end

/-! ## The rule file -/

omit [Text.CharacterNames] [Files.WalkLimit] [Settings.Reader] in
/-- Decoding breaks off on a text in UTF-16 without its mark, and where another decoder says so. -/
theorem decodeAs_breaks_iff (name : String) (bytes : ByteArray) (cause : Failure) :
    decodeAs name bytes = .error cause ∧ cause.isReported = false ↔
      cause = .decoding .noByteOrderMark ∧
        (Files.Codec.ofName? name = some .utf16 ∧
            Files.Codec.utf16.decode bytes = .error .noByteOrderMark ∨
          Files.Codec.ofName? name = none ∧ ∃ decode,
            Files.OtherCodecs.decoder? name = some decode ∧
              decode bytes = .error .noByteOrderMark) := by
  -- A decoder fails in one of two ways, and only one of them is not reported.
  have silent (decoded : Except Files.DecodeError (List Char)) :
      (decoded.map Text.unifyLineEnds).mapError Failure.decoding = .error cause ∧
          cause.isReported = false ↔
        cause = .decoding .noByteOrderMark ∧ decoded = .error .noByteOrderMark := by
    rw [mapError_eq_error_iff]
    constructor
    · rintro ⟨⟨problem, failed, rfl⟩, silent⟩
      rw [map_eq_error_iff] at failed
      cases problem with
      | malformed => cases silent
      | noByteOrderMark => exact ⟨rfl, failed⟩
    · rintro ⟨rfl, failed⟩
      exact ⟨⟨_, (map_eq_error_iff _ _ _).mpr failed, rfl⟩, rfl⟩
  unfold decodeAs Files.Codec.decodeText
  cases Files.Codec.ofName? name with
  | some codec =>
    simp only [silent, Option.some.injEq, reduceCtorEq, false_and, or_false]
    refine and_congr_right fun _ => ⟨fun failed => ?_, ?_⟩
    · obtain rfl := Files.decode_noByteOrderMark codec bytes failed
      exact ⟨rfl, failed⟩
    · rintro ⟨rfl, failed⟩
      exact failed
  | none =>
    cases Files.OtherCodecs.decoder? name with
    | some decode => simp [silent]
    | none =>
      simp only [Except.error.injEq, reduceCtorEq, false_and, and_false, exists_false, or_false,
        iff_false, not_and]
      rintro rfl
      simp [Failure.isReported]

omit [Text.CharacterNames] [Files.OtherCodecs] [Files.WalkLimit] [Settings.Reader] in
theorem encodingName_error_iff (encoding : Value) (cause : Failure) :
    encodingName encoding = .error cause ↔
      cause = .wrongType ∧ encoding ≠ .null ∧ (∀ name, encoding ≠ .text name) ∨
        ∃ name, cause = .codecHoldsNul name ∧ encoding = .text name ∧ '\x00' ∈ name.toList := by
  cases encoding with
  | text name =>
    simp only [encodingName, List.contains_iff_mem]
    constructor
    · intro failed
      split at failed
      next nul =>
        cases failed
        exact .inr ⟨name, rfl, rfl, nul⟩
      next => cases failed
    · rintro (⟨_, _, noText⟩ | ⟨_, rfl, ⟨⟩, nul⟩)
      · exact absurd rfl (noText name)
      · rw [if_pos nul]
  | _ => simp [encodingName, eq_comm]

section

omit [Files.WalkLimit] [Settings.Reader]

/-- What can go wrong with a rule file that is named. -/
theorem fails_named_iff (settings : Settings) (session : Session) (written : String)
    (named : settings.get "ignoreparser.rules.file" .null = .text written) (cause : Failure) :
    Fails (configuredRules settings) session (.failure cause) ↔
      (∃ problem, session.files.isFile (.ofText written) = .error problem ∧
        .file problem (.ofText written) = cause) ∨
      session.files.isFile (.ofText written) = .ok true ∧
        Fails (loadRules (.ofText written) (settings.get "ignoreparser.rules.encoding" .null))
          session cause := by
  unfold configuredRules
  simp [named, Failure.ofFile, mapError_eq_error_iff, mapError_eq_ok_iff]

theorem loadRules_breaks_iff (path : Path) (encoding : Value) (session : Session)
    (isFile : session.files.isFile path = .ok true) (cause : Failure) :
    Fails (loadRules path encoding) session cause ∧ cause.isReported = false ↔
      encodingName encoding = .error cause ∨
        ∃ name bytes, encodingName encoding = .ok name ∧
          (session.reading path encoding).files.read path = .ok bytes ∧
          (decodeAs name bytes = .error cause ∧ cause.isReported = false ∨
            ∃ text, decodeAs name bytes = .ok text ∧ Ruleset.Unreadable (Files.dropMark text) ∧
              .regex .codeTooLarge = cause) := by
  simp only [fails_loadRules_iff, Failure.ofFile, mapError_eq_error_iff, mapError_eq_ok_iff]
  constructor
  · rintro ⟨unnamed | ⟨name, asked, ⟨problem, lost, rfl⟩ | ⟨bytes, read, failed⟩⟩, silent⟩
    · exact .inl unnamed
    · -- By then a line may have gone to the rule file itself, but its path is fit to be followed.
      have reported := FileSystem.read_reported _ _ _ problem isFile lost
      simp [Failure.isReported, reported] at silent
    · exact .inr ⟨name, bytes, asked, read, failed.imp_left fun failed => ⟨failed, silent⟩⟩
  · rintro (unnamed | ⟨name, bytes, asked, read, ⟨failed, silent⟩ | unreadable⟩)
    · refine ⟨.inl unnamed, ?_⟩
      rcases (encodingName_error_iff encoding cause).mp unnamed with ⟨rfl, _⟩ | ⟨_, rfl, _⟩
      · rfl
      · rfl
    · exact ⟨.inr ⟨name, asked, .inr ⟨bytes, read, .inl failed⟩⟩, silent⟩
    · refine ⟨.inr ⟨name, asked, .inr ⟨bytes, read, .inr unreadable⟩⟩, ?_⟩
      obtain ⟨_, _, _, rfl⟩ := unreadable
      rfl

theorem namedRules_breaks_iff (written : String) (encoding : Value) (session : Session)
    (isFile : session.files.isFile (.ofText written) = .ok true) (cause : Failure) :
    Fails (loadRules (.ofText written) encoding) session cause ∧ cause.isReported = false ↔
      RulesBreak session (.text written) encoding cause := by
  rw [loadRules_breaks_iff _ encoding session isFile]
  constructor
  · rintro (unnamed | ⟨name, bytes, asked, read, broken⟩)
    · rcases (encodingName_error_iff encoding cause).mp unnamed with
        ⟨rfl, given, noText⟩ | ⟨name, rfl, asked, nul⟩
      · exact .encoding rfl isFile given noText
      · exact .codec rfl isFile asked nul
    · rcases broken with broken | ⟨text, decoded, unreadable, rfl⟩
      · obtain ⟨rfl, ⟨codec, unmarked⟩ | ⟨codec, decode, other, failed⟩⟩ :=
          (decodeAs_breaks_iff name bytes cause).mp broken
        · obtain ⟨filled, noMark, text, decodes⟩ := (Files.decode_utf16_iff bytes).mp unmarked
          exact .byteOrder rfl isFile asked codec read filled noMark decodes
        · exact .decoder rfl isFile asked codec other read failed
      · exact .text rfl isFile ⟨asked, read, decoded, rfl⟩ unreadable
  · intro breaks
    cases breaks with
    | file noText => exact absurd rfl (noText written)
    | encoding _ _ given noText =>
      exact .inl ((encodingName_error_iff _ _).mpr (.inl ⟨rfl, given, noText⟩))
    | codec _ _ asked nul =>
      exact .inl ((encodingName_error_iff _ _).mpr (.inr ⟨_, rfl, asked, nul⟩))
    | @byteOrder _ name bytes text named _ asked codec read filled noMark decodes =>
      obtain rfl := Value.text.inj named
      refine .inr ⟨name, bytes, asked, read, .inl ?_⟩
      have unmarked := (Files.decode_utf16_iff bytes).mpr ⟨filled, noMark, text, decodes⟩
      exact (decodeAs_breaks_iff name bytes _).mpr ⟨rfl, .inl ⟨codec, unmarked⟩⟩
    | @decoder _ name bytes decode named _ asked codec other read broken =>
      obtain rfl := Value.text.inj named
      refine .inr ⟨name, bytes, asked, read, .inl ?_⟩
      exact (decodeAs_breaks_iff name bytes _).mpr ⟨rfl, .inr ⟨codec, decode, other, broken⟩⟩
    | @text _ content named _ spoken unreadable =>
      obtain rfl := Value.text.inj named
      obtain ⟨asked, read, decoded, rfl⟩ := spoken
      exact .inr ⟨_, _, asked, read, .inr ⟨_, decoded, unreadable, rfl⟩⟩

theorem configuredRules_breaks_iff (settings : Settings) (session : Session) (cause : Failure) :
    Fails (configuredRules settings) session (.failure cause) ∧ cause.isReported = false ↔
      RulesBreak session (settings.get "ignoreparser.rules.file" .null)
        (settings.get "ignoreparser.rules.encoding" .null) cause := by
  cases named : settings.get "ignoreparser.rules.file" .null with
  | text written =>
    rw [fails_named_iff settings session written named]
    constructor
    · rintro ⟨⟨problem, long, rfl⟩ | ⟨isFile, failed⟩, silent⟩
      · rw [FileSystem.leadsTo_error _ _ _ problem long] at silent
        cases silent
      · exact (namedRules_breaks_iff written _ session isFile cause).mp ⟨failed, silent⟩
    · intro breaks
      have isFile : session.files.isFile (.ofText written) = .ok true := by
        cases breaks with
        | file noText => exact absurd rfl (noText written)
        | encoding same isFile _ _ => rwa [Value.text.inj same]
        | codec same isFile _ _ => rwa [Value.text.inj same]
        | byteOrder same isFile _ _ _ _ _ _ => rwa [Value.text.inj same]
        | decoder same isFile _ _ _ _ _ => rwa [Value.text.inj same]
        | text same isFile _ _ => rwa [Value.text.inj same]
      obtain ⟨failed, silent⟩ := (namedRules_breaks_iff written _ session isFile cause).mpr breaks
      exact ⟨.inr ⟨isFile, failed⟩, silent⟩
  | _ =>
    have noText (written : String) :
        settings.get "ignoreparser.rules.file" .null ≠ .text written := by
      simp [named]
    have wrong := fails_configuredRules settings session noText
    constructor
    · rintro ⟨failed, _⟩
      obtain rfl : cause = .wrongType := by
        simpa using failed.unique wrong
      exact .file (by simp)
    · intro breaks
      cases breaks with
      | file _ => exact ⟨wrong, rfl⟩
      | encoding same _ _ _ => cases same
      | codec same _ _ _ => cases same
      | byteOrder same _ _ _ _ _ _ _ => cases same
      | decoder same _ _ _ _ _ _ => cases same
      | text same _ _ _ => cases same

end

/-! ## The directory of a scan -/

omit [Text.CharacterNames] [Files.OtherCodecs] [Settings.Reader] in
/-- Listing a directory breaks off where one of the directories in it lies too deep. -/
theorem listFiles_breaks_iff (written : String) (withDirectories : Bool) (session : Session)
    (cause : Failure) :
    Fails (listFiles written withDirectories) session cause ∧ cause.isReported = false ↔
      cause = .tooDeep ∧ ∃ entries,
        session.files.lookup (.ofText written) = .ok (.directory entries) ∧
          ¬Shallow (Path.ofText written).leadLength (.directory entries) := by
  constructor
  · rintro ⟨failed, silent⟩
    cases found : session.files.directory? (.ofText written) with
    | none =>
      simp only [listFiles, Failure.ofFile, fails_bind_iff, not_fails_files, returns_files_iff,
        fails_lift_iff, mapError_eq_error_iff, false_or] at failed
      obtain ⟨_, _, ⟨rfl, rfl⟩, ⟨problem, long, rfl⟩ | ⟨_, _, _, failed⟩⟩ := failed
      · rw [FileSystem.leadsTo_error _ _ _ problem long] at silent
        cases silent
      · -- What is no directory is reported.
        rw [found] at failed
        obtain rfl := (fails_throw_iff _ _ _).mp failed
        cases silent
    | some node =>
      obtain ⟨entries, rfl, there⟩ := (directory?_eq_some_iff _ _ node).mp found
      by_cases shallow : Shallow (Path.ofText written).leadLength (.directory entries)
      · have returned := returns_listFiles session written withDirectories entries there shallow
        exact absurd failed (returned.not_fails cause)
      · have deep := fails_listFiles_of_deep session written withDirectories entries there shallow
        exact ⟨failed.unique deep, entries, there, shallow⟩
  · rintro ⟨rfl, entries, found, deep⟩
    exact ⟨fails_listFiles_of_deep session written withDirectories entries found deep, rfl⟩

section

omit [Text.CharacterNames] [Files.OtherCodecs] [Files.WalkLimit] [Settings.Reader]

/-- What can go wrong with the directory that a rule file is for. -/
theorem fails_ruleDirectory_iff (written : String) (session : Session) (cause : Failure) :
    Fails (ruleDirectory written) session cause ↔
      (∃ problem, session.files.expandHome (.ofText written) = .error problem ∧
        .file problem (.ofText written) = cause) ∨
      ∃ path, session.files.expandHome (.ofText written) = .ok path ∧
        (path.holdsNul = true ∧ .file .holdsNul path = cause ∨
          path.holdsNul = false ∧
            ((session.files.resolve path).names = [] ∧ .noRuleDirectory written = cause ∨
              (session.files.resolve path).names ≠ [] ∧
                ((∃ problem, session.files.isDirectory
                    (.absolute (session.files.resolve path).names.dropLast) = .error problem ∧
                    .file problem (.absolute (session.files.resolve path).names.dropLast) = cause) ∨
                  session.files.isDirectory
                    (.absolute (session.files.resolve path).names.dropLast) = .ok false ∧
                    .noRuleDirectory written = cause))) := by
  simp [ruleDirectory, Failure.ofFile, mapError_eq_error_iff, mapError_eq_ok_iff]

theorem ruleDirectory_breaks_iff (written : String) (session : Session) (cause : Failure) :
    Fails (ruleDirectory written) session cause ∧ cause.isReported = false ↔
      (∃ problem, session.files.expandHome (.ofText written) = .error problem ∧
        cause = .file problem (.ofText written)) ∨
      ∃ path, session.files.expandHome (.ofText written) = .ok path ∧ path.holdsNul = true ∧
        cause = .file .holdsNul path := by
  rw [fails_ruleDirectory_iff]
  constructor
  · rintro ⟨⟨problem, unknown, rfl⟩ | ⟨path, expanded, failed⟩, silent⟩
    · exact .inl ⟨problem, unknown, rfl⟩
    · rcases failed with ⟨nul, rfl⟩ | ⟨_, ⟨_, rfl⟩ | ⟨_, ⟨problem, long, rfl⟩ | ⟨_, rfl⟩⟩⟩
      · exact .inr ⟨path, expanded, nul, rfl⟩
      · cases silent
      · rw [FileSystem.leadsTo_error _ _ _ problem long] at silent
        cases silent
      · cases silent
  · rintro (⟨problem, unknown, rfl⟩ | ⟨path, expanded, nul, rfl⟩)
    · exact ⟨.inl ⟨problem, unknown, rfl⟩, FileSystem.expandHome_error _ _ problem unknown⟩
    · exact ⟨.inr ⟨path, expanded, .inl ⟨nul, rfl⟩⟩, rfl⟩

theorem returns_ruleDirectory_iff (written : String) (directory : Option String)
    (unnamed : given? directory = none) (session after : Session) (path : Path) :
    Returns (ruleDirectory written) session path after ↔
      Scans session.files written directory path ∧ session = after := by
  have steps : Returns (ruleDirectory written) session path after ↔ ∃ home,
      session.files.expandHome (.ofText written) = .ok home ∧ home.holdsNul = false ∧
        (session.files.resolve home).names ≠ [] ∧
        session.files.isDirectory (.absolute (session.files.resolve home).names.dropLast) =
          .ok true ∧
        .absolute (session.files.resolve home).names.dropLast = path ∧ session = after := by
    simp [ruleDirectory, Failure.ofFile, mapError_eq_ok_iff]
  rw [steps]
  constructor
  · rintro ⟨home, expanded, noNul, inside, found, rfl, same⟩
    exact ⟨.ofRules unnamed expanded noNul inside found, same⟩
  · rintro ⟨scans, same⟩
    cases scans with
    | named named => simp [unnamed] at named
    | ofRules _ expanded noNul inside found =>
      exact ⟨_, expanded, noNul, inside, found, rfl, same⟩

end

section

omit [Text.CharacterNames] [Files.OtherCodecs] [Settings.Reader]

/-- Once the directory is known, only its listing can break off. -/
theorem announced_breaks_iff (path : Path) (withDirectories : Bool) (rules : Ruleset)
    (selection : Selection) (session : Session) (cause : Failure) :
    Fails (do
        Action.log .info "Scanning directory"
          [("directory", .text path.toText), ("show", .text selection.name)]
        let entries ← listFiles path.toText withDirectories
        return selectionLines rules entries selection) session cause ∧
        cause.isReported = false ↔
      cause = .tooDeep ∧ ∃ entries,
        (scanning session path selection).files.lookup (.ofText path.toText) =
            .ok (.directory entries) ∧
          ¬Shallow (Path.ofText path.toText).leadLength (.directory entries) := by
  rw [← listFiles_breaks_iff path.toText withDirectories]
  simp [scanning]

theorem scan_breaks_iff (settings : Settings) (written : String) (rules : Ruleset)
    (directory : Option String) (withDirectories : Bool) (selection : Selection)
    (session : Session) (cause : Failure) :
    Fails (scanLines settings written rules directory selection) session cause ∧
        cause.isReported = false ↔
      ScanBreak session written (.scan directory withDirectories selection) cause := by
  unfold scanLines
  cases unnamed : given? directory with
  | some name =>
    simp only [pure_bind, announced_breaks_iff]
    constructor
    · rintro ⟨rfl, entries, found, deep⟩
      exact .depth (.named unnamed) found deep
    · intro breaks
      cases breaks with
      | home other _ => simp [unnamed] at other
      | path other _ _ => simp [unnamed] at other
      | depth scans found deep =>
        cases scans with
        | named named =>
          obtain rfl := Option.some.inj (unnamed.symm.trans named)
          exact ⟨rfl, _, found, deep⟩
        | ofRules other _ _ _ _ => simp [unnamed] at other
  | none =>
    rw [fails_bind_iff]
    constructor
    · rintro ⟨failed | ⟨path, between, returned, failed⟩, silent⟩
      · rcases (ruleDirectory_breaks_iff written session cause).mp ⟨failed, silent⟩ with
          ⟨problem, unknown, rfl⟩ | ⟨path, expanded, nul, rfl⟩
        · exact .home unnamed unknown
        · exact .path unnamed expanded nul
      · obtain ⟨scans, rfl⟩ :=
          (returns_ruleDirectory_iff written directory unnamed session between path).mp returned
        obtain ⟨rfl, entries, found, deep⟩ :=
          (announced_breaks_iff path _ rules selection session cause).mp ⟨failed, silent⟩
        exact .depth scans found deep
    · intro breaks
      have broken := (ruleDirectory_breaks_iff written session cause).mpr
      cases breaks with
      | home _ unknown =>
        obtain ⟨failed, silent⟩ := broken (.inl ⟨_, unknown, rfl⟩)
        exact ⟨.inl failed, silent⟩
      | path _ expanded nul =>
        obtain ⟨failed, silent⟩ := broken (.inr ⟨_, expanded, nul, rfl⟩)
        exact ⟨.inl failed, silent⟩
      | @depth _ _ _ path entries scans found deep =>
        have returned := (returns_ruleDirectory_iff written directory unnamed session session
          path).mpr ⟨scans, rfl⟩
        obtain ⟨failed, silent⟩ :=
          (announced_breaks_iff path _ rules selection session _).mpr ⟨rfl, entries, found, deep⟩
        exact ⟨.inr ⟨path, session, returned, failed⟩, silent⟩

end

omit [Settings.Reader] in
theorem commandLines_breaks_iff (settings : Settings) (command : Command) (session : Session)
    (cause : Failure) :
    Fails (commandLines settings command) session (.failure cause) ∧ cause.isReported = false ↔
      RulesBreak session (settings.get "ignoreparser.rules.file" .null)
          (settings.get "ignoreparser.rules.encoding" .null) cause ∨
        ∃ written rules after, Returns (configuredRules settings) session (written, rules) after ∧
          ScanBreak after written command cause := by
  unfold commandLines
  rw [fails_bind_iff, ← configuredRules_breaks_iff]
  constructor
  · rintro ⟨failed | ⟨⟨written, rules⟩, after, loaded, failed⟩, silent⟩
    · exact .inl ⟨failed, silent⟩
    · cases command with
      | check paths => cases failed
      | scan directory withDirectories selection =>
        simp only [fails_ofAction_iff, Trouble.failure.injEq, exists_eq_right] at failed
        refine .inr ⟨written, rules, after, loaded, ?_⟩
        exact (scan_breaks_iff settings _ rules _ _ _ after cause).mp ⟨failed, silent⟩
  · rintro (⟨failed, silent⟩ | ⟨written, rules, after, loaded, breaks⟩)
    · exact ⟨.inl failed, silent⟩
    · cases command with
      | check paths => cases breaks
      | scan directory withDirectories selection =>
        obtain ⟨failed, silent⟩ :=
          (scan_breaks_iff settings written rules _ _ _ after cause).mpr breaks
        refine ⟨.inr ⟨(written, rules), after, loaded, ?_⟩, silent⟩
        exact (fails_ofAction_iff _ _ _).mpr ⟨cause, failed, rfl⟩

/-! ## Whole runs -/

/-- Once the settings are loaded, only three of the four places are left. -/
theorem breaks_iff_of_loaded (world : World) (arguments : Arguments) (settings : Settings)
    (loaded : settingsOf world arguments = .ok settings) (cause : Failure) :
    Breaks world arguments cause ↔
      LogBreak world.files (settings.get "ignoreparser.logging.level" (.text "INFO"))
          (settings.get "ignoreparser.logging.file" .null) cause ∨
        ∃ session, openLog world settings = .ok session ∧
          (RulesBreak session (settings.get "ignoreparser.rules.file" .null)
              (settings.get "ignoreparser.rules.encoding" .null) cause ∨
            ∃ written rules after,
              Returns (configuredRules settings) session (written, rules) after ∧
                ScanBreak after written arguments.command cause) := by
  constructor
  · intro breaks
    cases breaks with
    | settings passed named breaks =>
      obtain ⟨failed, _⟩ :=
        (settingsOf_breaks_iff world arguments cause).mpr ⟨passed, _, named, breaks⟩
      cases loaded.symm.trans failed
    | log other breaks =>
      obtain rfl := Except.ok.inj (loaded.symm.trans other)
      exact .inl breaks
    | rules other opened breaks =>
      obtain rfl := Except.ok.inj (loaded.symm.trans other)
      exact .inr ⟨_, opened, .inl breaks⟩
    | scan other opened compiled breaks =>
      obtain rfl := Except.ok.inj (loaded.symm.trans other)
      exact .inr ⟨_, opened, .inr ⟨_, _, _, compiled, breaks⟩⟩
  · rintro (breaks | ⟨session, opened, breaks | ⟨written, rules, after, compiled, breaks⟩⟩)
    · exact .log loaded breaks
    · exact .rules loaded opened breaks
    · exact .scan loaded opened compiled breaks

/-- A run breaks off where one of its four places does. -/
theorem broken_iff_breaks (world : World) (words : List String) (arguments : Arguments)
    (read : Arguments.ofWords words = .ok arguments) (cause : Failure) :
    (run world words).ending = .broken cause ↔ Breaks world arguments cause := by
  cases loaded : settingsOf world arguments with
  | error trouble =>
    have ending : (run world words).ending = .ofTrouble trouble := by
      simp only [run, read, prepare, loaded]
      rfl
    have early := settingsOf_breaks_iff world arguments cause
    rw [loaded, Except.error.injEq] at early
    rw [ending, ofTrouble_eq_broken_iff, early]
    constructor
    · rintro ⟨passed, written, named, breaks⟩
      exact .settings passed named breaks
    · intro breaks
      -- The other places are reached with settings only.
      cases breaks with
      | settings passed named breaks => exact ⟨passed, _, named, breaks⟩
      | log other _ => cases loaded.symm.trans other
      | rules other _ _ => cases loaded.symm.trans other
      | scan other _ _ _ => cases loaded.symm.trans other
  | ok settings =>
    rw [run_of_settings world words arguments settings read loaded,
      breaks_iff_of_loaded world arguments settings loaded, ← openLog_breaks_iff]
    cases opened : openLog world settings with
    | error trouble =>
      simp only [ofTrouble_eq_broken_iff, Except.error.injEq, reduceCtorEq, false_and, exists_false,
        or_false]
    | ok session =>
      simp only [carryOut_broken_iff, commandLines_breaks_iff, Except.ok.injEq, reduceCtorEq,
        false_and, false_or, exists_eq_left']

/-- A program ends with a failure exactly where its run breaks off, on the inputs listed above, or
where it has finished and its output refuses one of the texts that it prints. In every other case it
is left by its command line, it returns 0 and has printed what it was asked for, or it returns 1
with a report and without output. -/
theorem run_escapes_iff [StandardOutput] (world : World) (words : List String) :
    (∀ cause, (run world words).ending = .broken cause ↔
      ∃ arguments, Arguments.ofWords words = .ok arguments ∧ Breaks world arguments cause) ∧
    ((run world words).close = .escaped ↔
      (∃ arguments cause, Arguments.ofWords words = .ok arguments ∧
        Breaks world arguments cause) ∨
      (run world words).ending = .finished ∧
        ∃ text ∈ (run world words).printed, StandardOutput.takes text = false) ∧
    ((run world words).close ≠ .escaped →
      (∃ exit, Arguments.ofWords words = .error exit ∧ (run world words).close = .left exit) ∨
      (run world words).close = .returned 0 ∧
        (run world words).written = (run world words).output ∨
      (run world words).close = .returned 1 ∧ (run world words).written = "" ∧
        ∃ trouble, (run world words).ending = .reported trouble) := by
  have broken : ∀ cause, (run world words).ending = .broken cause ↔
      ∃ arguments, Arguments.ofWords words = .ok arguments ∧ Breaks world arguments cause := by
    intro cause
    cases read : Arguments.ofWords words with
    | error exit =>
      rw [run_of_refused world words exit read]
      simp [leave]
    | ok arguments =>
      rw [broken_iff_breaks world words arguments read]
      simp
  refine ⟨broken, ?_, fun whole => ?_⟩
  · rw [Outcome.close_eq_escaped_iff, exists_comm]
    simp only [broken]
  · cases read : Arguments.ofWords words with
    | error exit =>
      refine .inl ⟨exit, rfl, ?_⟩
      rw [run_of_refused world words exit read]
      rfl
    | ok arguments =>
      have taken := mt (Outcome.close_eq_escaped_iff (run world words)).mpr whole
      rcases run_ends world words arguments read with
        finished | ⟨trouble, reported, silent⟩ | ⟨cause, ended⟩
      · have takes : ∀ text ∈ (run world words).printed, StandardOutput.takes text = true := by
          simpa [finished] using taken
        exact .inr (.inl ⟨(Outcome.close_eq_returned_zero_iff _).mpr ⟨finished, takes⟩,
          Outcome.written_of_takes takes⟩)
      · exact .inr (.inr ⟨(Outcome.close_eq_returned_one_iff _).mpr ⟨trouble, reported⟩,
          Outcome.written_of_silent silent, trouble, reported⟩)
      · exact absurd (.inl ⟨cause, ended⟩) taken

end

/-- Two characters in UTF-16, without a mark in front of them. -/
theorem run_escapes_unmarked :
    let _ := utf8Output
    let files : FileSystem := ⟨.directory [(".gitignore", .file ⟨#[0x61, 0x0A, 0x62, 0xFF]⟩)], [],
      "/", []⟩
    (run ⟨files, [], ""⟩ ["-e", "utf-16", "check", "a", "b"]).ending =
        .broken (.decoding .noByteOrderMark) ∧
      (run ⟨files, [], ""⟩ ["-e", "utf-16", "check", "a", "b"]).close = .escaped := by
  decide +kernel

end IgnoreRules.CommandLine
