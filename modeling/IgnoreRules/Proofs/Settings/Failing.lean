import IgnoreRules.Proofs.Files.Errors
import IgnoreRules.Proofs.Settings.Loads
import IgnoreRules.Settings.YamlReader

/-!
# Failures of loading

Whoever loads a file of settings is told what is wrong with it: there is none, it is no document, or
the document is no map. Here is stated on which files this happens, and which other failures leave
the load, none of which a caller is told about, whatever reads the documents.
-/

namespace IgnoreRules.Settings

open Files (FileError FileSystem Path)

section

variable [Reader]

/-! ## The two kinds of failure -/

/-- A file of settings is refused, as a caller is told. -/
inductive Refused (files : FileSystem) (written : String) : SettingsProblem → Prop
  -- What is a file of a tree can be read, so nothing is refused as unreadable.
  | notFound {path : Path} (expanded : files.expandHome (.ofText written) = .ok path)
      (absent : files.isFile path = .ok false) : Refused files written .notFound
  | malformed {bytes : ByteArray} (stores : Stores files written bytes)
      (malformed : Reader.read bytes = .error .malformed) :
      Refused files written .malformed
  | notMap {bytes : ByteArray} {parts : ValueGraph} (stores : Stores files written bytes)
      (parsed : Reader.read bytes = .ok parts) (noMap : parts.isMap = false) :
      Refused files written .notMap

/-- A load fails without telling what is wrong with the file: its home directory is not known, its
path is too long, or its reader finds that its bytes are no text, that they nest too deep, or that a
scalar has no value. -/
inductive Escapes (files : FileSystem) (written : String) : Failure → Prop
  | home {problem : FileError} (unknown : files.expandHome (.ofText written) = .error problem) :
      Escapes files written (.file problem (.ofText written))
  | tooLong {path : Path} (expanded : files.expandHome (.ofText written) = .ok path)
      (long : files.isFile path = .error .nameTooLong) :
      Escapes files written (.file .nameTooLong path)
  | noText {bytes : ByteArray} (stores : Stores files written bytes)
      (broken : Reader.read bytes = .error .unreadable) :
      Escapes files written (.decoding .malformed)
  | depth {bytes : ByteArray} (stores : Stores files written bytes)
      (deep : Reader.read bytes = .error .tooDeep) : Escapes files written .tooDeep
  | scalar {bytes : ByteArray} {fault : Yaml.ScalarFault} (stores : Stores files written bytes)
      (faulty : Reader.read bytes = .error (.scalar fault)) :
      Escapes files written (.scalar fault)

theorem Escapes.not_settings {files : FileSystem} {written : String} {cause : Failure}
    (escapes : Escapes files written cause) (problem : SettingsProblem) (path : String) :
    cause ≠ .settings problem path := by
  cases escapes <;> nofun

/-! ## The bytes of a file -/

theorem documentOf_eq_error_iff (written : String) (bytes : ByteArray) (cause : Failure) :
    documentOf written bytes = .error cause ↔
      (∃ problem, Reader.read bytes = .error problem ∧ failureOf written problem = cause) ∨
        ∃ parts, Reader.read bytes = .ok parts ∧ parts.isMap = false ∧
          .settings .notMap written = cause := by
  unfold documentOf
  cases Reader.read bytes with
  | error problem => simp
  | ok parts =>
    cases isMap : parts.isMap with
    | true => simp [isMap]
    | false => simp [isMap]

/-- What a file stores is its document. -/
theorem Stores.documentIn_eq {files : FileSystem} {written : String} {bytes : ByteArray}
    (stores : Stores files written bytes) :
    documentIn files written = documentOf written bytes := by
  obtain ⟨expanded, isFile, read⟩ := stores
  simp only [documentIn, Failure.ofFile, Except.mapError, bind, Except.bind, expanded, isFile, read,
    Bool.not_true, Bool.false_eq_true, if_false]

theorem Stores.documentIn_fault {files : FileSystem} {written : String} {bytes : ByteArray}
    (stores : Stores files written bytes) {problem : Yaml.Error}
    (faulty : Reader.read bytes = .error problem) :
    documentIn files written = .error (failureOf written problem) := by
  rw [stores.documentIn_eq, documentOf_eq_error_iff]
  exact .inl ⟨problem, faulty, rfl⟩

/-! ## Loads -/

/-- Only a path that is known can be looked at, only a file can be read, and only what is read can
be no document. -/
theorem documentIn_eq_error_iff (files : FileSystem) (written : String) (cause : Failure) :
    documentIn files written = .error cause ↔
      (∃ problem, Refused files written problem ∧ cause = .settings problem written) ∨
        Escapes files written cause := by
  constructor
  · intro failed
    simp only [documentIn, Failure.ofFile, bind_eq_error_iff, mapError_eq_error_iff,
      mapError_eq_ok_iff, passed_eq_error_iff] at failed
    rcases failed with ⟨problem, unknown, rfl⟩ | ⟨path, expanded, failed⟩
    · exact .inr (.home unknown)
    rcases failed with ⟨problem, long, rfl⟩ | ⟨isFile, asked, ⟨rfl, rfl⟩ | ⟨rfl, failed⟩⟩
    · obtain rfl := FileSystem.leadsTo_error _ _ _ problem long
      exact .inr (.tooLong expanded long)
    · exact .inl ⟨_, .notFound expanded asked, rfl⟩
    -- What is left is a file, and that its bytes cannot be read does not happen.
    obtain ⟨bytes, read⟩ := FileSystem.read_of_isFile files path asked
    rcases failed with ⟨problem, unread, _⟩ | ⟨found, again, failed⟩
    · cases read.symm.trans unread
    obtain rfl := Except.ok.inj (read.symm.trans again)
    have stores : Stores files written bytes := ⟨expanded, asked, read⟩
    rcases (documentOf_eq_error_iff written bytes cause).mp failed with
      ⟨problem, faulty, rfl⟩ | ⟨parts, parsed, noMap, rfl⟩
    · cases problem with
      | malformed => exact .inl ⟨_, .malformed stores faulty, rfl⟩
      | unreadable => exact .inr (.noText stores faulty)
      | tooDeep => exact .inr (.depth stores faulty)
      | scalar fault => exact .inr (.scalar stores faulty)
    · exact .inl ⟨_, .notMap stores parsed noMap, rfl⟩
  · rintro (⟨problem, refused, rfl⟩ | escapes)
    · cases refused with
      | notFound expanded absent =>
        simp only [documentIn, Failure.ofFile, Except.mapError, bind, Except.bind, expanded, absent,
          Bool.not_false, if_true]
        rfl
      | malformed stores malformed => exact stores.documentIn_fault malformed
      | @notMap bytes parts stores parsed noMap =>
        rw [stores.documentIn_eq, documentOf_eq_error_iff]
        exact .inr ⟨parts, parsed, noMap, rfl⟩
    · cases escapes with
      | home unknown =>
        simp only [documentIn, Failure.ofFile, Except.mapError, bind, Except.bind, unknown]
      | tooLong expanded long =>
        simp only [documentIn, Failure.ofFile, Except.mapError, bind, Except.bind, expanded, long]
      | noText stores broken => exact stores.documentIn_fault broken
      | depth stores deep => exact stores.documentIn_fault deep
      | scalar stores faulty => exact stores.documentIn_fault faulty

/-- A load succeeds on a file that holds a map, and only then; it fails in a way that a caller is
told about on a file that is refused, and only then; and in every other way exactly where the
failure escapes. -/
theorem loadFile_outcome (settings : Settings) (files : FileSystem) (written : String)
    (source : Source) :
    (∀ loaded, settings.loadFile files written source = .ok loaded ↔
      ∃ parts, InFile files written parts ∧ loaded = settings.load source parts.at?) ∧
    (∀ problem path, settings.loadFile files written source = .error (.settings problem path) ↔
      Refused files written problem ∧ path = written) ∧
    ∀ cause, settings.loadFile files written source = .error cause ∧
        (∀ problem path, cause ≠ .settings problem path) ↔
      Escapes files written cause := by
  have fails (cause : Failure) : settings.loadFile files written source = .error cause ↔
      documentIn files written = .error cause := by
    simp [loadFile, bind_eq_error_iff, pure, Except.pure]
  refine ⟨fun loaded => ?_, fun problem path => ?_, fun cause => ?_⟩
  · simp only [loadFile, bind_eq_ok_iff, documentIn_eq_ok_iff]
    constructor
    · rintro ⟨_, ⟨parts, read, rfl⟩, ⟨⟩⟩
      exact ⟨parts, read, rfl⟩
    · rintro ⟨parts, read, rfl⟩
      exact ⟨_, ⟨parts, read, rfl⟩, rfl⟩
  · rw [fails, documentIn_eq_error_iff]
    constructor
    · rintro (⟨_, refused, ⟨⟩⟩ | escapes)
      · exact ⟨refused, rfl⟩
      · exact absurd rfl (escapes.not_settings problem path)
    · rintro ⟨refused, rfl⟩
      exact .inl ⟨problem, refused, rfl⟩
  · rw [fails, documentIn_eq_error_iff]
    constructor
    · rintro ⟨⟨problem, _, rfl⟩ | escapes, unlike⟩
      · exact absurd rfl (unlike problem written)
      · exact escapes
    · intro escapes
      exact ⟨.inr escapes, escapes.not_settings⟩

end

/-- Bytes that are no text are neither a missing file nor a malformed document to a caller. -/
theorem loadFile_noText :
    let files : FileSystem := ⟨.directory [("c.yaml", .file ⟨#[0xFF]⟩)], [], "/", []⟩
    initial.loadFile files "c.yaml" .userFile = .error (.decoding .malformed) := by
  intro files
  have portions : Files.portionsOf ⟨#[0xFF]⟩ = ([], some .malformed) := by decide +kernel
  have broken : Yaml.read (inputOf ⟨#[0xFF]⟩) = .error .unreadable := by
    rw [inputOf, portions]
    rfl
  have stores : Stores files "c.yaml" ⟨#[0xFF]⟩ := ⟨rfl, rfl, rfl⟩
  have failed : documentIn files "c.yaml" = .error (.decoding .malformed) :=
    (documentIn_eq_error_iff files "c.yaml" _).mpr (.inr (.noText stores broken))
  rw [loadFile, failed]
  rfl

end IgnoreRules.Settings
