import IgnoreRules.Proofs.Scan.Failing

/-!
# What loading rules returns

A rule file is read in the encoding that is asked for, a mark at the start of its text is dropped,
and what is left is compiled. Each of these steps is announced in the log, so that the file is read
in the session in which its reading has been announced.
-/

namespace IgnoreRules

/-- What a rule file says at the time it is read: its bytes in the encoding that is asked for. -/
inductive SaysWhenRead [Files.OtherCodecs] (session : Session) (path : Files.Path)
    (encoding : Value) (content : List Char) : Prop
  | intro {name : String} {bytes : ByteArray} {text : List Char}
      (asked : encodingName encoding = .ok name)
      -- The log file may be the rule file, so the bytes are those behind the announcement.
      (read : (session.reading path encoding).files.read path = .ok bytes)
      (decoded : decodeAs name bytes = .ok text)
      (unmarked : Files.dropMark text = content)

theorem returns_readRules_iff [Files.OtherCodecs] (path : Files.Path) (encoding : Value)
    (session after : Session) (content : List Char) :
    Returns (readRules path encoding) session content after ↔
      SaysWhenRead session path encoding content ∧ session.reading path encoding = after := by
  simp only [readRules, readBytes, Failure.ofFile, bind_assoc, returns_bind_iff, returns_log_iff,
    returns_lift_iff, returns_files_iff, returns_pure_iff, mapError_eq_ok_iff]
  constructor
  · rintro ⟨_, _, rfl, name, _, ⟨asked, rfl⟩, _, _, ⟨rfl, rfl⟩, bytes, _, ⟨read, rfl⟩, text, _,
      ⟨decoded, rfl⟩, unmarked, rfl⟩
    exact ⟨.intro asked read decoded unmarked, rfl⟩
  · rintro ⟨⟨asked, read, decoded, unmarked⟩, rfl⟩
    exact ⟨(), _, rfl, _, _, ⟨asked, rfl⟩, _, _, ⟨rfl, rfl⟩, _, _, ⟨read, rfl⟩, _, _,
      ⟨decoded, rfl⟩, unmarked, rfl⟩

theorem returns_compileRules_iff [Text.CharacterNames] (content : List Char)
    (session after : Session) (rules : Ruleset) :
    Returns (compileRules content) session rules after ↔
      Ruleset.ofContent content = .ok rules ∧ session.compiling rules = after := by
  constructor
  · intro returned
    rcases Ruleset.ofContent_cases content with unreadable | ⟨found, compiled, _⟩
    · simp [compileRules, unreadable.broken] at returned
    · obtain ⟨value, state⟩ :=
        Prod.mk.inj ((returns_compileRules content found compiled session).symm.trans returned)
      obtain rfl := Except.ok.inj value
      exact ⟨compiled, state⟩
  · rintro ⟨compiled, rfl⟩
    exact returns_compileRules content rules compiled session

theorem returns_loadRules_iff [Text.CharacterNames] [Files.OtherCodecs] (path : Files.Path)
    (encoding : Value) (session after : Session) (rules : Ruleset) :
    Returns (loadRules path encoding) session rules after ↔
      ∃ content, SaysWhenRead session path encoding content ∧
        Ruleset.ofContent content = .ok rules ∧
        (session.reading path encoding).compiling rules = after := by
  simp only [loadRules, returns_bind_iff, returns_readRules_iff, returns_compileRules_iff]
  constructor
  · rintro ⟨content, _, ⟨spoken, rfl⟩, compiled, rfl⟩
    exact ⟨content, spoken, compiled, rfl⟩
  · rintro ⟨content, spoken, compiled, rfl⟩
    exact ⟨content, _, ⟨spoken, rfl⟩, compiled, rfl⟩

end IgnoreRules
