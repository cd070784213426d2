import IgnoreRules.Proofs.Files.Encoding
import IgnoreRules.Proofs.Ruleset.Layout
import IgnoreRules.Proofs.Scan.Loading
import IgnoreRules.Text.AsciiNames
import IgnoreRules.Files.Standard

/-!
# Rules as they are stored

A rule text can be stored in many ways: in any encoding that holds it, with a byte order mark or
without one, and with its lines ended in any of the three ways. Reading drops the mark and writes
every line end as a line feed, and so the rules of a file are those of its text.
-/

namespace IgnoreRules

namespace Text

/-- The three ways to end a line. -/
inductive IsLineEnd : List Char → Prop
  | feed : IsLineEnd ['\n']
  | carriageReturn : IsLineEnd ['\r']
  | both : IsLineEnd ['\r', '\n']

/-- The same text with its lines ended in other ways. A carriage return and a line feed that meet
may count as one line end or as two. -/
inductive Respells : List Char → List Char → Prop
  | empty : Respells [] []
  | char {c : Char} {text written : List Char} (inside : endsLine c = false)
      (rest : Respells text written) : Respells (c :: text) (c :: written)
  | lineEnd {stop other text written : List Char} (ends : IsLineEnd stop)
      (endsToo : IsLineEnd other) (rest : Respells text written) :
      Respells (stop ++ text) (other ++ written)

theorem respells_unifyLineEnds (text : List Char) : Respells text (unifyLineEnds text) := by
  fun_induction unifyLineEnds text with
  | case1 => exact .empty
  | case2 rest ih => exact .lineEnd .both .feed ih
  | case3 rest _ ih => exact .lineEnd .carriageReturn .feed ih
  | case4 c rest _ notReturn ih =>
    -- The text that is unified may end its lines with line feeds already.
    by_cases feed : c = '\n'
    · subst feed
      exact .lineEnd .feed .feed ih
    · exact .char (by simp [endsLine, feed, show c ≠ '\r' from notReturn]) ih

theorem splitOnP_lineEnd (stop text : List Char) (ends : IsLineEnd stop) :
    ∃ stretches, (stop ++ text).splitOnP endsLine = [] :: stretches ∧
      stretches.filter (· ≠ []) = runs text := by
  have cut (c : Char) (rest : List Char) (ends : endsLine c = true) :
      (c :: rest).splitOnP endsLine = [] :: rest.splitOnP endsLine := by
    rw [List.splitOnP_cons_eq_if_modifyHead, if_pos ends]
  cases ends with
  | feed => exact ⟨_, cut '\n' text rfl, rfl⟩
  | carriageReturn => exact ⟨_, cut '\r' text rfl, rfl⟩
  | both => exact ⟨_, cut '\r' ('\n' :: text) rfl, by rw [cut '\n' text rfl]; rfl⟩

/-- What lies between line ends stays as it is. -/
theorem Respells.runs_eq {text written : List Char} (respells : Respells text written) :
    runs text = runs written := by
  -- The first stretch is still growing, so the induction keeps it apart from those behind it.
  have apart : ∃ first stretches others, text.splitOnP endsLine = first :: stretches ∧
      written.splitOnP endsLine = first :: others ∧
      stretches.filter (· ≠ []) = others.filter (· ≠ []) := by
    induction respells with
    | empty => exact ⟨[], [], [], rfl, rfl, rfl⟩
    | @char c _ _ inside _ ih =>
      obtain ⟨first, stretches, others, cut, cutToo, same⟩ := ih
      refine ⟨c :: first, stretches, others, ?_, ?_, same⟩
      · simp [List.splitOnP_cons_eq_if_modifyHead, inside, cut]
      · simp [List.splitOnP_cons_eq_if_modifyHead, inside, cutToo]
    | @lineEnd stop other text written ends endsToo _ ih =>
      obtain ⟨first, stretches, others, cut, cutToo, same⟩ := ih
      have rest : runs text = runs written := by
        rw [runs, runs, cut, cutToo, List.filter_cons, List.filter_cons, same]
      obtain ⟨behind, split, left⟩ := splitOnP_lineEnd stop text ends
      obtain ⟨behindToo, splitToo, leftToo⟩ := splitOnP_lineEnd other written endsToo
      exact ⟨[], behind, behindToo, split, splitToo, by rw [left, leftToo, rest]⟩
  obtain ⟨first, stretches, others, cut, cutToo, same⟩ := apart
  rw [runs, runs, cut, cutToo, List.filter_cons, List.filter_cons, same]

theorem Respells.unmarked {text written : List Char} (respells : Respells text written)
    (unmarked : text.head? ≠ some Files.byteOrderMark) :
    written.head? ≠ some Files.byteOrderMark := by
  cases respells with
  | empty => exact unmarked
  | char inside rest => exact unmarked
  | lineEnd ends endsToo rest => cases endsToo <;> simp [Files.byteOrderMark]

theorem unifyLineEnds_marked (mark : Bool) (text : List Char) :
    unifyLineEnds (Files.marked mark text) = Files.marked mark (unifyLineEnds text) := by
  cases mark with
  | false => rfl
  | true => simp [Files.marked, Files.byteOrderMark, unifyLineEnds]

end Text

theorem RuleLines.ofContent_runs (first second : List Char)
    (same : Text.runs first = Text.runs second) : ofContent first = ofContent second := by
  rw [ofContent_rules, ofContent_rules, rules, rules, same]

/-- A rule file that stores a text, in whatever encoding and with whatever line ends, is read as a
text with the same rule lines, and the rules loaded from it are those of the text itself. Where the
text does not compile, neither does the file. -/
theorem loadRules_stored [Text.CharacterNames] [Files.OtherCodecs] (session : Session)
    (path : Files.Path) (encoding : Value) (name : String) (codec : Files.Codec)
    (text written : List Char) (bytes : ByteArray) (asked : encodingName encoding = .ok name)
    (known : Files.Codec.ofName? name = some codec)
    (unmarked : text.head? ≠ some Files.byteOrderMark) (respells : Text.Respells text written)
    (stores : Files.Stores written codec bytes)
    (read : (session.reading path encoding).files.read path = .ok bytes) :
    ∃ content,
      Returns (readRules path encoding) session content (session.reading path encoding) ∧
      RuleLines.ofContent content = RuleLines.ofContent text ∧
      ((Ruleset.Unreadable text ∧
        Fails (loadRules path encoding) session (.regex .codeTooLarge)) ∨
      ∃ rules, Ruleset.ofContent text = .ok rules ∧
        Returns (loadRules path encoding) session rules
          ((session.reading path encoding).compiling rules)) := by
  obtain ⟨mark, decoded⟩ := stores.decoded (respells.unmarked unmarked)
  -- What is read is the text once more, with its line ends in one more way.
  have unified := Text.respells_unifyLineEnds written
  have plain := unified.unmarked (respells.unmarked unmarked)
  have decodedAs : decodeAs name bytes =
      .ok (Files.marked mark (Text.unifyLineEnds written)) := by
    rw [decodeAs, known]
    simp [Files.Codec.decodeText, decoded, Text.unifyLineEnds_marked, Except.map, Except.mapError]
  have spoken : SaysWhenRead session path encoding (Text.unifyLineEnds written) :=
    .intro asked read decodedAs (Files.dropMark_marked _ plain mark)
  have lines : RuleLines.ofContent (Text.unifyLineEnds written) = RuleLines.ofContent text :=
    RuleLines.ofContent_runs _ _ (respells.runs_eq.trans unified.runs_eq).symm
  have readText := (returns_readRules_iff ..).mpr ⟨spoken, rfl⟩
  refine ⟨_, readText, lines, (Ruleset.ofContent_cases text).imp (fun unreadable => ?_) ?_⟩
  · have unreadableToo : Ruleset.Unreadable (Text.unifyLineEnds written) := by
      rwa [Ruleset.unreadable_iff, lines, ← Ruleset.unreadable_iff]
    exact ⟨unreadable, (fails_bind_iff _ _ _ _).mpr
      (.inr ⟨_, _, readText, (fails_compileRules_iff _ _ _).mpr ⟨unreadableToo, rfl⟩⟩)⟩
  · rintro ⟨rules, compiled, _⟩
    have compiledToo : Ruleset.ofContent (Text.unifyLineEnds written) = .ok rules := by
      rw [← compiled, Ruleset.ofContent, Ruleset.ofContent, lines]
    exact ⟨rules, compiled, (returns_loadRules_iff ..).mpr ⟨_, spoken, compiledToo, rfl⟩⟩

/-- One text as UTF-16 with a mark, and with every line ended in another way. -/
theorem loadRules_stored_utf16 :
    let text := "ä\n\r!b\r\n".toList
    let written := "ä\r\r\n!b\n".toList
    let session := Session.start
      ⟨.directory [("r", .file (Files.encodeUtf16 true (Files.marked true written)))], [], "/", []⟩
      (.standard "ignoreparser") ""
    ∃ rules after, Ruleset.ofContent text = .ok rules ∧
      Returns (loadRules (.ofText "r") (.text "UTF-16")) session rules after := by
  intro text written session
  have respells : Text.Respells text written :=
    .char rfl (.lineEnd .feed .carriageReturn (.lineEnd .carriageReturn .both
      (.char rfl (.char rfl (.lineEnd .both .feed .empty)))))
  have read : (session.reading (.ofText "r") (.text "UTF-16")).files.read (.ofText "r") =
      .ok (Files.encodeUtf16 true (Files.marked true written)) := rfl
  obtain ⟨_, compiles, _⟩ : ∃ rules, Ruleset.ofContent text = .ok rules ∧
      rules.denies "ä".toList = true := ok_of_view (by decide +kernel)
  obtain ⟨_, _, _, outcome⟩ := loadRules_stored session (.ofText "r")
    (.text "UTF-16") "UTF-16" .utf16 text written _ rfl (by decide) (by decide) respells
    (.utf16 true) read
  obtain ⟨rules, compiled, returned⟩ := outcome.resolve_left fun refused =>
    Ruleset.not_unreadable compiles refused.1
  exact ⟨rules, _, compiled, returned⟩

end IgnoreRules
