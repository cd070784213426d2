import IgnoreRules.Files.Codec
import IgnoreRules.Proofs.Outcome
import IgnoreRules.Files.Tree

/-!
# Errors of files

Which errors the operations on files and encodings come to. Where the system is asked it reports
them; what comes up before it is asked, a NUL in a path or a home directory that is not known, and
a missing byte order mark have to be told apart from these.
-/

namespace IgnoreRules.Files

namespace FileSystem

/-! ## Home directories -/

theorem homeOf_error (files : FileSystem) (user : List Char) (problem : FileError)
    (failed : files.homeOf user = .error problem) : problem.isReported = false := by
  unfold homeOf at failed
  split at failed
  · cases failed
  split at failed
  · cases failed
    rfl
  split at failed
  · cases failed
  · cases failed
    rfl

theorem homePath_error (home : String) (problem : FileError)
    (failed : homePath home = .error problem) : problem.isReported = false := by
  unfold homePath at failed
  simp only at failed
  split at failed
  · cases failed
  · cases failed
    rfl
  · cases failed

/-- A home directory that is not known is never reported. -/
theorem expandHome_error (files : FileSystem) (path : Path) (problem : FileError)
    (failed : files.expandHome path = .error problem) : problem.isReported = false := by
  unfold expandHome at failed
  split at failed
  · simp only [bind_eq_error_iff] at failed
    rcases failed with unknown | ⟨home, _, unusable | ⟨_, _, ⟨⟩⟩⟩
    · exact homeOf_error files _ problem unknown
    · exact homePath_error home problem unusable
  · cases failed

/-! ## Paths that lead somewhere -/

/-- A question for what a path leads to has no answer only where the path is too long. -/
theorem leadsTo_error (files : FileSystem) (path : Path) (test : Node → Bool)
    (problem : FileError) (failed : files.leadsTo path test = .error problem) :
    problem = .nameTooLong := by
  unfold leadsTo at failed
  split at failed
  · cases failed
  · cases failed
    rfl
  · cases failed

/-- What is a file can be read. -/
theorem read_of_isFile (files : FileSystem) (path : Path)
    (found : files.isFile path = .ok true) : ∃ bytes, files.read path = .ok bytes := by
  unfold isFile leadsTo at found
  unfold read
  cases reached : files.lookup path with
  | error problem => cases problem <;> simp [reached] at found
  | ok node =>
    cases node with
    | file content => exact ⟨content, rfl⟩
    | directory entries => simp [reached, Node.isFile] at found
    | special => simp [reached, Node.isFile] at found

theorem walk_reported (above : List Node) (node : Node) (names : List String)
    (problem : FileError) (failed : node.walk above names = .error problem) :
    problem.isReported = true := by
  -- A name leads down to a child or, if it is `..`, back up to a node that was passed before.
  induction names generalizing above node with
  | nil => simp [Node.walk] at failed
  | cons name rest ih =>
    cases node with
    | directory entries =>
      rw [Node.walk.eq_def] at failed
      simp only at failed
      split at failed
      · split at failed
        · exact ih _ _ failed
        · exact ih _ _ failed
      split at failed
      · cases failed
        rfl
      split at failed
      · exact ih _ _ failed
      · cases failed
        rfl
    | _ =>
      simp only [Node.walk, Except.error.injEq] at failed
      rw [← failed]
      rfl

/-- Whatever becomes of the files, a path that has led to one of them is fit to be followed. -/
theorem read_reported (files other : FileSystem) (path : Path) (problem : FileError)
    (found : files.isFile path = .ok true) (failed : other.read path = .error problem) :
    problem.isReported = true := by
  -- This is a question of the path alone, not of the files.
  have fit : checkPath path = .ok () := by
    unfold isFile leadsTo lookup at found
    cases checked : checkPath path with
    | ok fine => rfl
    | error problem => cases problem <;> simp [checked, bind, Except.bind] at found
  unfold read lookup at failed
  rw [fit] at failed
  split at failed
  · cases failed
  · cases failed
    rfl
  · cases failed
  next lost =>
    cases failed
    exact walk_reported _ _ _ problem lost

/-! ## Writing -/

theorem append_reported (node : Node) (names : List String) (bytes : ByteArray)
    (problem : FileError) (failed : node.append names bytes = .error problem) :
    problem.isReported = true := by
  induction names generalizing node problem with
  | nil =>
    cases node with
    | directory entries =>
      simp only [Node.append, Except.error.injEq] at failed
      rw [← failed]
      rfl
    | _ => simp [Node.append] at failed
  | cons name rest ih =>
    cases node with
    | directory entries =>
      rw [Node.append.eq_def] at failed
      simp only at failed
      split at failed
      · cases failed
        rfl
      split at failed
      · rcases (bind_eq_error_iff _ _ _).mp failed with inner | ⟨_, _, ⟨⟩⟩
        exact ih _ problem inner
      · cases rest with
        | nil => cases failed
        | cons _ _ =>
          cases failed
          rfl
    | _ =>
      simp only [Node.append, Except.error.injEq] at failed
      rw [← failed]
      rfl

/-- Only a path with a NUL keeps a file from being written to without a report. -/
theorem append_breaks_iff (files : FileSystem) (path : Path) (text : String) (problem : FileError) :
    files.append path text = .error problem ∧ problem.isReported = false ↔
      path.holdsNul = true ∧ problem = .holdsNul := by
  unfold append checkPath
  cases nul : path.holdsNul with
  | true =>
    simp only [if_true]
    constructor
    · rintro ⟨⟨⟩, _⟩
      exact ⟨trivial, rfl⟩
    · rintro ⟨_, rfl⟩
      exact ⟨rfl, rfl⟩
  | false =>
    simp only [Bool.false_eq_true, if_false, false_and, iff_false, not_and, bind_eq_error_iff]
    intro failed
    have reported : problem.isReported = true := by
      rcases failed with long | ⟨_, _, refused | ⟨_, _, ⟨⟩⟩⟩
      · split at long
        · cases long
          rfl
        · cases long
      · exact append_reported _ _ _ problem refused
    simp [reported]

end FileSystem

/-! ## Encodings -/

/-- Bytes start with one of the marks that tell the byte order. -/
def TellsByteOrder (bytes : List UInt8) : Prop :=
  [0xFF, 0xFE] <+: bytes ∨ [0xFE, 0xFF] <+: bytes

theorem decodeUnits_error (bigEndian : Bool) (bytes : List UInt8) (problem : DecodeError)
    (failed : decodeUnits bigEndian bytes = .error problem) : problem = .malformed := by
  unfold decodeUnits at failed
  split at failed
  · cases failed
  · cases failed
    rfl

theorem decodeUtf8_error (bytes : ByteArray) (problem : DecodeError)
    (failed : decodeUtf8 bytes = .error problem) : problem = .malformed := by
  unfold decodeUtf8 at failed
  split at failed
  · cases failed
  · cases failed
    rfl

theorem decode_noByteOrderMark (codec : Codec) (bytes : ByteArray)
    (failed : codec.decode bytes = .error .noByteOrderMark) : codec = .utf16 := by
  cases codec with
  | utf16 => rfl
  | utf8 => cases decodeUtf8_error bytes _ failed
  | utf8Marked =>
    simp only [Codec.decode] at failed
    split at failed
    · cases failed
    · cases decoded : decodeUtf8 bytes with
      | ok text => simp [decoded, Except.map] at failed
      | error problem =>
        obtain rfl := decodeUtf8_error bytes problem decoded
        simp [decoded, Except.map] at failed
  | latin1 => cases failed
  | ascii =>
    simp only [Codec.decode] at failed
    split at failed
    · cases failed
    · cases failed
  | utf16Little => cases decodeUnits_error false _ _ failed
  | utf16Big => cases decodeUnits_error true _ _ failed

/-- UTF-16 misses its mark where the bytes can be read without. -/
theorem decode_utf16_iff (bytes : ByteArray) :
    Codec.utf16.decode bytes = .error .noByteOrderMark ↔
      bytes.data.toList ≠ [] ∧ ¬TellsByteOrder bytes.data.toList ∧
        ∃ text, decodeUnits false bytes.data.toList = .ok text := by
  unfold Codec.decode
  simp only
  split
  next empty => simp [empty]
  next rest little =>
    have noFault := decodeUnits_error false rest .noByteOrderMark
    simp only [reduceCtorEq, imp_false] at noFault
    simp [little, TellsByteOrder, noFault]
  next rest big =>
    have noFault := decodeUnits_error true rest .noByteOrderMark
    simp only [reduceCtorEq, imp_false] at noFault
    simp [big, TellsByteOrder, noFault]
  next filled notLittle notBig =>
    have noMark : ¬TellsByteOrder bytes.data.toList := by
      rintro (⟨rest, little⟩ | ⟨rest, big⟩)
      · exact notLittle rest little.symm
      · exact notBig rest big.symm
    cases decoded : decodeUnits false bytes.data.toList with
    | ok text =>
      have someBytes : bytes.data.toList ≠ [] := filled
      simp only [Except.bind, someBytes, ne_eq, not_false_eq_true, noMark, Except.ok.injEq,
        exists_eq', and_self]
    | error problem =>
      obtain rfl := decodeUnits_error false _ problem decoded
      simp [Except.bind]

end IgnoreRules.Files
