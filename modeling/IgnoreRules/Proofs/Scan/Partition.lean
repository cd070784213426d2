import IgnoreRules.Proofs.Ruleset.Precedence
import IgnoreRules.Proofs.Scan.Failing
import IgnoreRules.Text.AsciiNames
import IgnoreRules.Files.Standard

/-!
# Every route splits a listing alike

A listing is split at once or filtered twice. It is given or comes from a lister, and the rules
come from a text or from a file. A scan prints either part of it, or all of it with labels, and a
check labels the paths it is given. Some of these ask of each entry whether it is kept, others
whether it is ignored, and the two answers are worked out apart. Since they are opposites, the
entries are dealt out the same way by all.
-/

namespace IgnoreRules

open Files (Path)

/-- Entries are dealt out, one after the other and as they stand, to those that are kept and those
that are ignored. A line for each entry tells where it went. -/
inductive Ruleset.Deals (rules : Ruleset) : (entries kept ignored lines : List String) → Prop
  | done : Deals rules [] [] [] []
  | keep {entries kept ignored lines : List String} (entry : String)
      (accepted : rules.accepts entry.toList = true) (notDenied : rules.denies entry.toList = false)
      (rest : Deals rules entries kept ignored lines) :
      Deals rules (entry :: entries) (entry :: kept) ignored (("kept\t" ++ entry) :: lines)
  | ignore {entries kept ignored lines : List String} (entry : String)
      (notAccepted : rules.accepts entry.toList = false) (denied : rules.denies entry.toList = true)
      (rest : Deals rules entries kept ignored lines) :
      Deals rules (entry :: entries) kept (entry :: ignored) (("ignored\t" ++ entry) :: lines)

/-! ## The surroundings of a listing -/

/-- The directory to list: the one that is written, or the one that the rule file is for. -/
def locate (rulePath : String) (written : Option String) : Action Path :=
  match written with
  | some written => pure (Path.ofText written)
  | none => ruleDirectory rulePath

namespace Session

/-- A session in which the directory of a rule file is about to be listed. -/
def filtering (session : Session) (rulePath : String) (directory : Path) : Session :=
  { session with logger := session.logger.push [("rule_file", .text rulePath)] }.log
    ⟨.debug, "Filtering directory", [("directory", .text directory.toText)]⟩

/-- A session in which a directory is about to be scanned. -/
def scanning (session : Session) (directory : Path) (selection : CommandLine.Selection) : Session :=
  session.log ⟨.info, "Scanning directory",
    [("directory", .text directory.toText), ("show", .text selection.name)]⟩

end Session

/-- What is to be shown of a listing that has been dealt out. -/
def CommandLine.Selection.choose (kept ignored lines : List String) : Selection → List String
  | .accepted => kept
  | .denied => ignored
  | .all => lines

namespace Ruleset

/-- A listing goes apart into two lists, with a line for each entry, on whichever route the rules of
a text are applied to it. -/
structure Partitions [Text.CharacterNames] [Files.OtherCodecs] [Files.WalkLimit] (rules : Ruleset)
    (content : List Char) (entries kept ignored lines : List String) : Prop where
  compiled : ofContent content = .ok rules
  deals : rules.Deals entries kept ignored lines
  split : rules.splitEntries entries = (kept, ignored)
  accepted : rules.acceptedEntries entries = kept
  denied : rules.deniedEntries entries = ignored
  acceptedIn : ∀ (lister : Lister) directory session after,
    Returns (lister directory) session entries after →
      Returns (rules.acceptedIn directory lister) session kept after
  deniedIn : ∀ (lister : Lister) directory session after,
    Returns (lister directory) session entries after →
      Returns (rules.deniedIn directory lister) session ignored after
  filterDirectory : ∀ (lister : Lister) directory session after,
    Returns (lister directory) (session.compiling rules) entries after →
      Returns (filterDirectory content directory lister) session (kept, ignored) after
  filterByRuleFile : ∀ (lister : Lister) rulePath encoding written directory session found readIn
      after,
    Returns (locate rulePath written) session directory found →
    Returns (readRules (Path.ofText rulePath) encoding) found content readIn →
    Returns (lister directory) ((readIn.compiling rules).filtering rulePath directory) entries
      after →
      Returns (filterByRuleFile rulePath encoding written lister) session
        ⟨directory, kept, ignored⟩ { after with logger := after.logger.pop }
  scan : ∀ settings rulePath written directory withDirectories selection session loaded found after,
    Returns (CommandLine.configuredRules settings) session (rulePath, rules) loaded →
    Returns (locate rulePath (CommandLine.given? written)) loaded directory found →
    Returns (listFiles directory.toText
        (settings.get "ignoreparser.scan.include_directories" (.bool false)).isTruthy)
      (found.scanning directory selection) entries after →
      CommandLine.Prints session settings (.scan written withDirectories selection)
        (selection.choose kept ignored lines)
  check : ∀ settings rulePath session loaded,
    Returns (CommandLine.configuredRules settings) session (rulePath, rules) loaded →
      CommandLine.Prints session settings (.check entries) lines

/-- No listing is split by the rules of a text, and every route fails for the same reason. -/
structure Refused [Files.OtherCodecs] [Text.CharacterNames] (content : List Char) : Prop where
  unreadable : Unreadable content
  filterDirectory : ∀ (lister : Lister) directory session,
    Fails (filterDirectory content directory lister) session (.regex .codeTooLarge)
  filterByRuleFile : ∀ (lister : Lister) rulePath encoding written directory
      (session found readIn : Session),
    Returns (locate rulePath written) session directory found →
    Returns (readRules (Path.ofText rulePath) encoding) found content readIn →
      Fails (filterByRuleFile rulePath encoding written lister) session (.regex .codeTooLarge)
  configuredRules : ∀ (settings : Settings) written (session readIn : Session),
    settings.get "ignoreparser.rules.file" .null = .text written →
    session.files.isFile (Path.ofText written) = .ok true →
    Returns (readRules (Path.ofText written)
      (settings.get "ignoreparser.rules.encoding" .null)) session content readIn →
      Fails (CommandLine.configuredRules settings) session (.failure (.regex .codeTooLarge))

theorem acceptedEntries_eq (rules : Ruleset) (entries : List String) :
    rules.acceptedEntries entries = entries.filter fun entry => rules.accepts entry.toList := by
  simp [acceptedEntries, accepted, List.filter_map, Function.comp_def]

theorem deniedEntries_eq (rules : Ruleset) (entries : List String) :
    rules.deniedEntries entries = entries.filter fun entry => rules.denies entry.toList := by
  simp [deniedEntries, denied, List.filter_map, Function.comp_def]

section

variable (rules : Ruleset) (opposite : ∀ path, rules.accepts path = !rules.denies path)

include opposite

/-- What is not accepted when a listing is split is what is denied. -/
theorem splitEntries_eq (entries : List String) :
    rules.splitEntries entries = (rules.acceptedEntries entries, rules.deniedEntries entries) := by
  have rejected : (fun path => !rules.accepts path) = rules.denies := by
    funext path
    rw [opposite, Bool.not_not]
  simp only [splitEntries, split, List.partition_eq_filter_filter, acceptedEntries, accepted,
    deniedEntries, denied, ← rejected, Function.comp_def]

/-- Each entry is dealt to the part that the verdict on it names. -/
theorem deals_entries (entries : List String) :
    rules.Deals entries (rules.acceptedEntries entries) (rules.deniedEntries entries)
      (entries.map (CommandLine.verdictLine rules)) := by
  rw [acceptedEntries_eq, deniedEntries_eq]
  induction entries with
  | nil => exact .done
  | cons entry entries ih =>
    cases denied : rules.denies entry.toList with
    | false =>
      have accepted : rules.accepts entry.toList = true := by rw [opposite, denied, Bool.not_false]
      have line : CommandLine.verdictLine rules entry = "kept\t" ++ entry := by
        simp [CommandLine.verdictLine, denied]
      simp only [List.filter_cons, accepted, denied, if_true, Bool.false_eq_true, if_false,
        List.map_cons, line]
      exact .keep entry accepted denied ih
    | true =>
      have rejected : rules.accepts entry.toList = false := by rw [opposite, denied, Bool.not_true]
      have line : CommandLine.verdictLine rules entry = "ignored\t" ++ entry := by
        simp [CommandLine.verdictLine, denied]
      simp only [List.filter_cons, rejected, denied, if_true, Bool.false_eq_true, if_false,
        List.map_cons, line]
      exact .ignore entry rejected denied ih

end

/-- The rules of a text are compiled, then the directory is listed, then the listing is split. -/
theorem returns_filterDirectory [Text.CharacterNames] (content : List Char) (rules : Ruleset)
    (compiled : ofContent content = .ok rules) (lister : Lister) (directory : Path)
    (entries : List String) (session after : Session)
    (listed : Returns (lister directory) (session.compiling rules) entries after) :
    Returns (filterDirectory content directory lister) session (rules.splitEntries entries)
      after :=
  (returns_compileRules content rules compiled session).bind (listed.map rules.splitEntries)

theorem returns_filterByRuleFile [Text.CharacterNames] [Files.OtherCodecs] (content : List Char)
    (rules : Ruleset) (compiled : ofContent content = .ok rules) (lister : Lister)
    (rulePath : String) (encoding : Value) (written : Option String) (directory : Path)
    (entries : List String) (session found readIn after : Session)
    (located : Returns (locate rulePath written) session directory found)
    (read : Returns (readRules (Path.ofText rulePath) encoding) found content readIn)
    (listed : Returns (lister directory)
      ((readIn.compiling rules).filtering rulePath directory) entries after) :
    Returns (filterByRuleFile rulePath encoding written lister) session
      ⟨directory, (rules.splitEntries entries).1, (rules.splitEntries entries).2⟩
      { after with logger := after.logger.pop } := by
  have loaded : Returns (loadRules (Path.ofText rulePath) encoding) found rules
      (readIn.compiling rules) :=
    read.bind (returns_compileRules content rules compiled readIn)
  have opened := returns_log .debug "Filtering directory" [("directory", .text directory.toText)]
    { readIn.compiling rules with
      logger := (readIn.compiling rules).logger.push [("rule_file", .text rulePath)] }
  have split := opened.andThen (listed.map fun entries =>
    Filtering.mk directory (rules.splitEntries entries).1 (rules.splitEntries entries).2)
  cases written with
  | none => exact located.bind (loaded.bind split.within)
  | some written => exact located.bind (loaded.bind split.within)

end Ruleset

namespace CommandLine

theorem prints_check [Text.CharacterNames] [Files.OtherCodecs] [Files.WalkLimit] (rules : Ruleset)
    (settings : Settings) (rulePath : String) (session loaded : Session) (entries : List String)
    (configured : Returns (configuredRules settings) session (rulePath, rules) loaded) :
    Prints session settings (.check entries) (entries.map (verdictLine rules)) :=
  prints_of_returns (configured.bind (returns_pure loaded _))

theorem prints_scan [Text.CharacterNames] [Files.OtherCodecs] [Files.WalkLimit] (rules : Ruleset)
    (settings : Settings) (rulePath : String) (written : Option String) (directory : Path)
    (withDirectories : Bool) (selection : Selection) (entries : List String)
    (session loaded found after : Session)
    (configured : Returns (configuredRules settings) session (rulePath, rules) loaded)
    (located : Returns (locate rulePath (given? written)) loaded directory found)
    (listed : Returns (listFiles directory.toText
        (settings.get "ignoreparser.scan.include_directories" (.bool false)).isTruthy)
      (found.scanning directory selection) entries after) :
    Prints session settings (.scan written withDirectories selection)
      (selectionLines rules entries selection) := by
  have opened := returns_log .info "Scanning directory"
    [("directory", .text directory.toText), ("show", .text selection.name)] found
  have shown := opened.andThen (listed.map fun entries => selectionLines rules entries selection)
  have scanned : Returns (scanLines settings rulePath rules written selection) loaded
      (selectionLines rules entries selection) after := by
    unfold scanLines
    cases given : given? written with
    | none =>
      rw [given] at located
      exact located.bind shown
    | some named =>
      rw [given] at located
      exact located.bind shown
  exact prints_of_returns (configured.bind (returns_ofAction scanned))

end CommandLine

namespace Ruleset

theorem refused_of_unreadable [Text.CharacterNames] [Files.OtherCodecs] {content : List Char}
    (unreadable : Unreadable content) :
    Refused content := by
  have compiling (session : Session) :
      Fails (compileRules content) session (.regex .codeTooLarge) :=
    (fails_compileRules_iff content session _).mpr ⟨unreadable, rfl⟩
  have loading (path : Path) (encoding : Value) (session readIn : Session)
      (read : Returns (readRules path encoding) session content readIn) :
      Fails (loadRules path encoding) session (.regex .codeTooLarge) :=
    (fails_bind_iff _ _ _ _).mpr (.inr ⟨content, readIn, read, compiling readIn⟩)
  refine ⟨unreadable, fun lister directory session => ?_, ?_, ?_⟩
  · exact (fails_bind_iff _ _ _ _).mpr (.inl (compiling session))
  · intro lister rulePath encoding written directory session found readIn located read
    have failed := loading _ encoding found readIn read
    -- The directory is known before the rules are loaded.
    cases written with
    | none =>
      refine (fails_bind_iff _ _ _ _).mpr (.inr ⟨directory, found, located, ?_⟩)
      exact (fails_bind_iff _ _ _ _).mpr (.inl failed)
    | some written =>
      refine (fails_bind_iff _ _ _ _).mpr (.inr ⟨directory, found, located, ?_⟩)
      exact (fails_bind_iff _ _ _ _).mpr (.inl failed)
  · intro settings written session readIn named isFile read
    have failed := loading _ _ session readIn read
    unfold CommandLine.configuredRules
    simp only [named]
    simp [Failure.ofFile, isFile, failed, Except.mapError]

/-- However the rules of a text are applied to a listing, the same entries are kept and the same are
ignored, or, if the text does not compile, every route fails. -/
theorem partition_on_every_route [Text.CharacterNames] [Files.OtherCodecs] [Files.WalkLimit]
    (content : List Char) (entries : List String) :
    Refused content ∨
      ∃ rules kept ignored lines, Partitions rules content entries kept ignored lines := by
  refine (ofContent_cases content).imp refused_of_unreadable ?_
  rintro ⟨rules, compiled, ignoring, reincluding⟩
  have opposite (path : List Char) : rules.accepts path = !rules.denies path := by
    obtain ⟨accepts, denies, _⟩ := consult_result rules _ _ ignoring reincluding path
    rw [accepts, denies, ← decide_not, decide_eq_decide]
    omega
  have split := splitEntries_eq rules opposite entries
  refine ⟨rules, rules.acceptedEntries entries, rules.deniedEntries entries,
    entries.map (CommandLine.verdictLine rules), ?_⟩
  exact {
    compiled
    deals := deals_entries rules opposite entries
    split
    accepted := rfl
    denied := rfl
    acceptedIn := fun lister directory session after listed => listed.map rules.acceptedEntries
    deniedIn := fun lister directory session after listed => listed.map rules.deniedEntries
    filterDirectory := fun lister directory session after listed =>
      split ▸ returns_filterDirectory content rules compiled lister directory entries session after
        listed
    filterByRuleFile := by
      intro lister rulePath encoding written directory session found readIn after located read
        listed
      have filtered := returns_filterByRuleFile content rules compiled lister rulePath encoding
        written directory entries session found readIn after located read listed
      rwa [split] at filtered
    scan := by
      intro settings rulePath written directory withDirectories selection session loaded found
        after configured located listed
      have printed := CommandLine.prints_scan rules settings rulePath written directory
        withDirectories selection entries session loaded found after configured located listed
      cases selection with
      | accepted => exact printed
      | denied => exact printed
      | all => exact printed
    check := fun settings rulePath session loaded configured =>
      CommandLine.prints_check rules settings rulePath session loaded entries configured }

/-- A lister may give an entry twice. It is kept twice. -/
theorem partition_on_every_route_twice :
    let files : Files.FileSystem :=
      ⟨.directory [(".gitignore", .file "a*\n!ab".toUTF8)], [], "/", []⟩
    let lister : Lister := fun _ => pure ["ab", "ax", "ab"]
    ∃ after, Returns (filterByRuleFile ".gitignore" .null none lister)
      (Session.start files (.standard "ignoreparser") "")
      ⟨.absolute [], ["ab", "ab"], ["ax"]⟩ after := by
  intro files lister
  let session := Session.start files (.standard "ignoreparser") ""
  obtain ⟨known, compiled, splits⟩ : ∃ rules, ofContent "a*\n!ab".toList = .ok rules ∧
      rules.splitEntries ["ab", "ax", "ab"] = (["ab", "ab"], ["ax"]) :=
    ok_of_view (by decide +kernel)
  obtain ⟨rules, kept, ignored, lines, routes⟩ :=
    (partition_on_every_route "a*\n!ab".toList ["ab", "ax", "ab"]).resolve_left
      fun refused => not_unreadable compiled refused.unreadable
  obtain rfl : rules = known := Except.ok.inj (routes.compiled.symm.trans compiled)
  have located : Returns (locate ".gitignore" none) session (.absolute []) _ :=
    returns_of_run (by decide +kernel)
  have read : Returns (readRules (Path.ofText ".gitignore") .null) session "a*\n!ab".toList _ :=
    returns_of_run (by decide +kernel)
  obtain ⟨rfl, rfl⟩ := Prod.ext_iff.mp (routes.split.symm.trans splits)
  exact ⟨_, routes.filterByRuleFile lister ".gitignore" .null none (.absolute []) session session
    session _ located read (returns_pure _ _)⟩

end Ruleset
end IgnoreRules
