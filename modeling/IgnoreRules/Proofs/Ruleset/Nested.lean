import IgnoreRules.Proofs.Glob.Hits
import IgnoreRules.Proofs.Ruleset.Precedence
import IgnoreRules.Text.AsciiNames

/-!
# Nested literal rules

A rule that spells out the path of an entry speaks of the entry and of everything below it. Of
several such rules that speak of a path each names an entry above the next, and a verdict follows
the one that is nearest to the path. The code compares how far matches reach and not how deep rules
are. A match takes the separator behind the entry along, but for the rule whose entry is the path
itself, and a deeper rule reaches further because a component has at least one character.
-/

namespace IgnoreRules

open Pattern

/-- A rule line that spells out the path of an entry. -/
structure NestedRule where
  reincludes : Bool
  words : List (List Char)
  directory : Bool
  nonempty : words ≠ []
  plain : ∀ word ∈ words, word ≠ [] ∧ ∀ c ∈ word, c.isAlphanum = true ∨ c ∈ ['.', '_', '-']

namespace NestedRule

def pattern (rule : NestedRule) : List Char := trail rule.words ++ ending rule.directory

/-- The line of the rule file. -/
def line (rule : NestedRule) : List Char :=
  if rule.reincludes then '!' :: rule.pattern else rule.pattern

/-- The rule hits the entry that it names and what is below it. -/
def Hits (rule : NestedRule) (path : EntryPath) : Prop :=
  ∃ rest, path.components = rule.words ++ rest ∧
    (rule.directory = true → rest ≠ [] ∨ path.trailing = true)

/-- Some line hits a path, and those that do and are the deepest are no re-including ones. -/
def Denied (lines : List (List Char)) (path : EntryPath) : Prop :=
  (∃ rule : NestedRule, rule.line ∈ lines ∧ rule.Hits path) ∧
    ∀ rule : NestedRule, rule.line ∈ lines → rule.Hits path →
      (∀ other : NestedRule, other.line ∈ lines → other.Hits path →
        other.words.length ≤ rule.words.length) →
      rule.reincludes = false

/-! ## How far a nested rule reaches -/

private theorem between (c : Char) (plain : c.isAlphanum = true ∨ c ∈ ['.', '_', '-']) :
    44 < c.toNat ∧ c.toNat < 123 ∧ c ≠ '/' ∧ c ≠ '?' ∧ c ≠ '[' ∧ c ≠ '\\' := by
  rcases plain with alphanumeric | mark
  · have apart (d : Char) (other : d.isAlphanum = false) : c ≠ d := by
      rintro rfl
      simp [alphanumeric] at other
    have range := Text.alphanum_range c alphanumeric
    exact ⟨by omega, by omega, apart _ rfl, apart _ rfl, apart _ rfl, apart _ rfl⟩
  · simp only [List.mem_cons, List.not_mem_nil, or_false] at mark
    rcases mark with rfl | rfl | rfl <;> decide

private theorem isLiteral_plain (c : Char) (plain : c.isAlphanum = true ∨ c ∈ ['.', '_', '-']) :
    IsLiteral c := by
  have bounds := between c plain
  intro special
  simp only [List.mem_cons, List.not_mem_nil, or_false] at special
  rcases special with rfl | rfl | rfl | rfl | rfl | rfl | rfl <;> revert bounds <;> decide

private theorem isBlank_plain (c : Char) (plain : c.isAlphanum = true ∨ c ∈ ['.', '_', '-']) :
    Text.isBlank c = false := by
  have bounds := between c plain
  exact Text.isBlank_printable c (by omega) (by omega)

/-- The words of a rule as segments. -/
def segments (rule : NestedRule) : List Segment :=
  rule.words.map fun word => .word (word.map .literal)

theorem segments_text (rule : NestedRule) : rule.segments.map Segment.text = rule.words := by
  have same (word : List Char) : Segment.text (.word (word.map .literal)) = word := by
    simp [Segment.text, Function.comp_def, Item.char]
  simp [segments, Function.comp_def, same]

theorem segments_proper (rule : NestedRule) : Segment.Proper rule.segments where
  words items member := by
    simp only [segments, List.mem_map, Segment.word.injEq] at member
    obtain ⟨word, listed, rfl⟩ := member
    have plain := rule.plain word listed
    refine ⟨by simpa using plain.1, fun c inside => ?_, ?_⟩
    · exact isLiteral_plain c (plain.2 c (by simpa using inside))
    · rw [List.isChain_map]
      exact (List.pairwise_of_forall fun _ _ both => nomatch both.1).isChain
  apart := by
    rw [segments, List.isChain_map]
    exact (List.pairwise_of_forall fun _ _ both => nomatch both.1).isChain

private theorem segments_nonempty (rule : NestedRule) : rule.segments ≠ [] := by
  simpa [segments] using rule.nonempty

private theorem join_segments (rule : NestedRule) :
    '/' :: Segment.join rule.segments = trail rule.words := by
  rw [← Segment.trail_text _ rule.segments_nonempty, segments_text]

/-- A nested rule is a rooted glob without wildcards. -/
def glob (rule : NestedRule) : Glob where
  rooted := true
  segments := rule.segments
  directory := rule.directory
  nonempty := rule.segments_nonempty
  proper := rule.segments_proper
  visible := by
    obtain ⟨word, words, same⟩ := List.exists_cons_of_ne_nil rule.nonempty
    have plain := rule.plain word (by simp [same])
    obtain ⟨c, rest, first⟩ := List.exists_cons_of_ne_nil plain.1
    have joined := rule.join_segments
    rw [same, first, trail_cons] at joined
    exact ⟨c, by simp [(List.cons.inj joined).2], isBlank_plain c (plain.2 c (by simp [first]))⟩

theorem glob_text (rule : NestedRule) : rule.glob.text = rule.pattern := by
  change '/' :: Segment.join rule.segments ++ ending rule.directory = _
  rw [join_segments, pattern]

/-- Without wildcards the segments stand for one list of components. -/
theorem accept_iff (rule : NestedRule) (components : List (List Char)) :
    Segment.Accept rule.segments components ↔ components = rule.words := by
  have spelled (word name : List Char) : Item.Accept (word.map .literal) name ↔ name = word := by
    induction word generalizing name with
    | nil => exact Iff.rfl
    | cons c word ih => simp [Item.Accept, ih]
  rw [segments]
  induction rule.words generalizing components with
  | nil => exact Iff.rfl
  | cons word words ih => simp [Segment.Accept, spelled, ih]

theorem forDirectories_iff (rule : NestedRule) :
    rule.glob.ForDirectories ↔ rule.directory = true := by
  refine or_iff_left ?_
  rintro ⟨_, last⟩
  have member := List.mem_of_getLast? last
  simp [glob, segments] at member

private theorem hitsAt_iff (rule : NestedRule) (path : EntryPath)
    (before taken after : List (List Char)) :
    rule.glob.HitsAt path before taken after ↔
      before = [] ∧ taken = rule.words ∧ path.components = rule.words ++ after ∧
        (rule.directory = true → after ≠ [] ∨ path.trailing = true) := by
  constructor
  · rintro ⟨components, anchored, accepted, _, inside⟩
    obtain rfl := anchored (.inl rfl)
    obtain rfl := (rule.accept_iff taken).mp accepted
    exact ⟨rfl, rfl, components, fun directory => inside (rule.forDirectories_iff.mpr directory)⟩
  · rintro ⟨rfl, rfl, components, inside⟩
    refine ⟨components, fun _ => rfl, (rule.accept_iff _).mpr rfl, fun _ => rule.nonempty, ?_⟩
    exact fun directories => inside (rule.forDirectories_iff.mp directories)

private theorem last_plain (rule : NestedRule) :
    rule.glob.segments ≠ [.doubleStar] ∧
      rule.glob.segments.getLast? ≠ some (.word [.anyRun]) := by
  have each (segment : Segment) (member : segment ∈ rule.glob.segments) :
      ∃ word : List Char, segment = .word (word.map .literal) := by
    obtain ⟨word, _, rfl⟩ := List.mem_map.mp member
    exact ⟨word, rfl⟩
  constructor
  · intro same
    obtain ⟨word, other⟩ := each .doubleStar (by simp [same])
    cases other
  · intro last
    obtain ⟨word, same⟩ := each _ (List.mem_of_getLast? last)
    have member : Item.anyRun ∈ word.map .literal := by
      simp [← Segment.word.inj same]
    simp at member

/-- A nested rule that hits a path reaches to the separator behind its entry, if there is one. -/
theorem reach_of_hits [Text.CharacterNames] (rule : NestedRule) (path : EntryPath)
    (rest : List (List Char)) (components : path.components = rule.words ++ rest)
    (inside : rule.directory = true → rest ≠ [] ∨ path.trailing = true) :
    Rule.reach rule.pattern path.text = (trail rule.words ++ path.stop rest).length := by
  obtain ⟨regex, read⟩ := rule.glob.exists_regex
  obtain ⟨behind, split, matched⟩ := rule.glob.matches_of_hitsAt regex read path [] rule.words rest
    ((rule.hitsAt_iff path _ _ _).mpr ⟨rfl, rfl, components, inside⟩)
  have hit := (Regex.hits_iff regex path.text).mpr ⟨_, _, _, split, matched⟩
  obtain ⟨found, searched⟩ := Option.isSome_iff_exists.mp hit
  -- The search may report any match, but there is only one.
  obtain ⟨front, after, split, start, matched⟩ := Regex.search_sound regex path.text found searched
  rw [start] at matched
  obtain ⟨before, taken, others, hit, rfl, text⟩ := rule.glob.hitsAt_of_matches regex read
    rule.last_plain.1 path (fun _ => rule.last_plain.2) front found.text after split matched
  obtain ⟨rfl, rfl, again, _⟩ := (rule.hitsAt_iff path _ _ _).mp hit
  obtain rfl := List.append_cancel_left (again.symm.trans components)
  rw [glob_text, Rule.regex] at read
  simp only [Rule.reach, read, ReadRule.reach, searched, text]

theorem reach_pos_iff [Text.CharacterNames] (rule : NestedRule) (path : EntryPath) :
    0 < Rule.reach rule.pattern path.text ↔ rule.Hits path := by
  obtain ⟨regex, read⟩ := rule.glob.exists_regex
  have source := read
  rw [glob_text] at source
  rw [Rule.reach_pos_iff _ _ regex source, Regex.hits_iff]
  constructor
  · rintro ⟨front, found, after, split, matched⟩
    obtain ⟨before, taken, others, hit, _⟩ := rule.glob.hitsAt_of_matches regex read
      rule.last_plain.1 path (fun _ => rule.last_plain.2) front found after split matched
    obtain ⟨_, _, components, inside⟩ := (rule.hitsAt_iff path _ _ _).mp hit
    exact ⟨others, components, inside⟩
  · rintro ⟨rest, components, inside⟩
    obtain ⟨behind, split, matched⟩ := rule.glob.matches_of_hitsAt regex read path [] rule.words rest
      ((rule.hitsAt_iff path _ _ _).mpr ⟨rfl, rfl, components, inside⟩)
    exact ⟨_, _, _, split, matched⟩

/-- Of two rules that hit a path the deeper one reaches further. -/
private theorem reach_lt_of_deeper [Text.CharacterNames] (first second : NestedRule)
    (path : EntryPath) (hits : first.Hits path) (hitsToo : second.Hits path)
    (deeper : first.words.length < second.words.length) :
    Rule.reach first.pattern path.text < Rule.reach second.pattern path.text := by
  obtain ⟨rest, components, inside⟩ := hits
  obtain ⟨others, componentsToo, insideToo⟩ := hitsToo
  rw [first.reach_of_hits path rest components inside,
    second.reach_of_hits path others componentsToo insideToo]
  rcases List.append_eq_append_iff.mp (components.symm.trans componentsToo) with
    ⟨further, longer, _⟩ | ⟨further, shorter, _⟩
  · -- Where the first match ends with one separator, the second has that and a character more.
    cases further with
    | nil => simp [longer] at deeper
    | cons word words =>
      -- The deeper trail has a separator of its own there and at least one character behind it.
      have length := List.length_pos_iff.mpr (second.plain word (by simp [longer])).1
      have stop : (path.stop rest).length ≤ 1 := by
        rw [EntryPath.stop, ending]
        split <;> simp
      simp only [longer, trail_append, trail_cons, List.length_append, List.length_cons]
      omega
  · simp only [shorter, List.length_append] at deeper
    omega

/-- Rules that hit a path compare as their depths do. -/
theorem reach_lt_iff [Text.CharacterNames] (first second : NestedRule) (path : EntryPath)
    (hits : first.Hits path) (hitsToo : second.Hits path) :
    Rule.reach first.pattern path.text < Rule.reach second.pattern path.text ↔
      first.words.length < second.words.length := by
  refine ⟨fun further => ?_, reach_lt_of_deeper first second path hits hitsToo⟩
  -- Rules of one depth that hit the same path name the same entry, and so reach equally far.
  rcases Nat.lt_trichotomy first.words.length second.words.length with less | same | more
  · exact less
  · obtain ⟨rest, components, inside⟩ := hits
    obtain ⟨others, componentsToo, insideToo⟩ := hitsToo
    obtain ⟨words, tail⟩ := List.append_inj (components.symm.trans componentsToo) same
    rw [first.reach_of_hits path rest components inside,
      second.reach_of_hits path others componentsToo insideToo, words, tail] at further
    omega
  · have back := reach_lt_of_deeper second first path hitsToo hits more
    omega

/-! ## Rule texts -/

/-- The patterns of one kind. -/
def ofKind (reincludes : Bool) (lines : RuleLines) : List (List Char) :=
  if reincludes then lines.reincluding else lines.ignoring

private theorem pattern_head (rule : NestedRule) : ∃ rest, rule.pattern = '/' :: rest := by
  obtain ⟨word, words, same⟩ := List.exists_cons_of_ne_nil rule.nonempty
  exact ⟨_, by rw [pattern, same, trail_cons, List.cons_append]⟩

/-- A line is sorted by what its rule does. -/
theorem ofKind_cons (rule : NestedRule) (reincludes : Bool) (lines : RuleLines) :
    ofKind reincludes (RuleLines.cons rule.line lines) =
      if rule.reincludes = reincludes then rule.pattern :: ofKind reincludes lines
      else ofKind reincludes lines := by
  obtain ⟨rest, head⟩ := rule.pattern_head
  cases kind : rule.reincludes <;> cases reincludes <;>
    simp [line, kind, head, RuleLines.cons, ofKind]

private theorem line_inj (first second : NestedRule) (same : first.line = second.line) :
    first.reincludes = second.reincludes ∧ first.pattern = second.pattern := by
  obtain ⟨rest, head⟩ := first.pattern_head
  obtain ⟨others, headToo⟩ := second.pattern_head
  cases kind : first.reincludes <;> cases kindToo : second.reincludes <;>
    simp_all [line]

private theorem line_nonempty (rule : NestedRule) : rule.line ≠ [] := by
  obtain ⟨rest, head⟩ := rule.pattern_head
  cases kind : rule.reincludes <;> simp [line, kind, head]

/-- A text all of whose lines are nested rules, but for empty ones. -/
def AllNested (lines : List (List Char)) : Prop :=
  ∀ text ∈ lines, text = [] ∨ ∃ rule : NestedRule, text = rule.line

/-- The patterns of each kind are those of the lines, in whatever order and number. -/
theorem mem_ofKind (lines : List (List Char)) (nested : AllNested lines) (reincludes : Bool)
    (text : List Char) :
    text ∈ ofKind reincludes (lines.foldr RuleLines.cons ⟨[], []⟩) ↔
      ∃ rule : NestedRule, rule.line ∈ lines ∧ rule.reincludes = reincludes ∧
        rule.pattern = text := by
  induction lines with
  | nil => cases reincludes <;> simp [ofKind]
  | cons line lines ih =>
    have further := ih fun other member => nested other (by simp [member])
    rw [List.foldr_cons]
    rcases nested line (by simp) with rfl | ⟨first, rfl⟩
    · simpa [RuleLines.cons, line_nonempty] using further
    · have either : (∃ rule : NestedRule, rule.line ∈ first.line :: lines ∧
          rule.reincludes = reincludes ∧ rule.pattern = text) ↔
          (first.reincludes = reincludes ∧ first.pattern = text) ∨
          text ∈ ofKind reincludes (lines.foldr RuleLines.cons ⟨[], []⟩) := by
        rw [further]
        constructor
        · rintro ⟨rule, member, kind, spelled⟩
          rcases List.mem_cons.mp member with same | member
          · have parts := line_inj rule first same
            exact .inl ⟨parts.1 ▸ kind, parts.2 ▸ spelled⟩
          · exact .inr ⟨rule, member, kind, spelled⟩
        · rintro (⟨kind, spelled⟩ | ⟨rule, member, kind, spelled⟩)
          · exact ⟨first, by simp, kind, spelled⟩
          · exact ⟨rule, by simp [member], kind, spelled⟩
      rw [either, ofKind_cons]
      by_cases kind : first.reincludes = reincludes
      · simp [kind, eq_comm]
      · simp [kind]

/-- Among rules that hit a path there is a deepest. -/
theorem exists_deepest (lines : List (List Char)) (path : EntryPath) (rule : NestedRule)
    (listed : rule.line ∈ lines) (hits : rule.Hits path) :
    ∃ deepest : NestedRule, deepest.line ∈ lines ∧ deepest.Hits path ∧
      ∀ other : NestedRule, other.line ∈ lines → other.Hits path →
        other.words.length ≤ deepest.words.length := by
  -- The induction is on how much deeper a rule could still be.
  generalize left : path.components.length - rule.words.length = room
  induction room using Nat.strongRecOn generalizing rule with
  | ind room ih =>
    by_cases further : ∃ other : NestedRule, other.line ∈ lines ∧ other.Hits path ∧
        rule.words.length < other.words.length
    · obtain ⟨other, present, hitsToo, deeper⟩ := further
      -- The rule cannot be deeper than the path.
      have within : other.words.length ≤ path.components.length := by
        obtain ⟨rest, components, _⟩ := hitsToo
        simp [components]
      exact ih _ (by omega) other present hitsToo rfl
    · refine ⟨rule, listed, hits, fun other present hitsToo => ?_⟩
      by_cases deeper : rule.words.length < other.words.length
      · exact absurd ⟨other, present, hitsToo, deeper⟩ further
      · omega

/-- An ignoring rule that is deeper than all re-including ones decides as the deepest rules do. -/
theorem denied_iff (lines : List (List Char)) (path : EntryPath) :
    Denied lines path ↔ ∃ rule : NestedRule, rule.line ∈ lines ∧ rule.reincludes = false ∧
      rule.Hits path ∧ ∀ other : NestedRule, other.line ∈ lines → other.reincludes = true →
        other.Hits path → other.words.length < rule.words.length := by
  constructor
  · rintro ⟨⟨some, listed, hits⟩, decides⟩
    obtain ⟨deepest, present, hitsToo, most⟩ := exists_deepest lines path some listed hits
    refine ⟨deepest, present, decides deepest present hitsToo most, hitsToo, ?_⟩
    intro other member kind hit
    have atMost := most other member hit
    -- A re-including rule as deep as the deepest would be one of those that decide.
    by_cases same : other.words.length = deepest.words.length
    · have ignores := decides other member hit fun rule inside hitting => by
        have bound := most rule inside hitting
        omega
      simp [kind] at ignores
    · omega
  · rintro ⟨rule, listed, kind, hits, deeper⟩
    refine ⟨⟨rule, listed, hits⟩, fun deepest present hitsToo most => ?_⟩
    cases reincludes : deepest.reincludes with
    | false => rfl
    | true =>
      have less := deeper deepest present reincludes hitsToo
      have more := most rule listed hits
      omega

/-- Among nested literal rules the deepest ones that hit a path decide, whatever the order of the
lines and however often each is given. A path is judged as the rules see it, where a backslash is a
separator. -/
theorem denies_by_depth [Text.CharacterNames] (content : List Char)
    (nested : AllNested (RuleLines.contentLines content)) (path : List Char) (entry : EntryPath)
    (normal : normalizePath path = entry.text) :
    ∃ rules, Ruleset.ofContent content = .ok rules ∧
      (rules.denies path = true ↔ Denied (RuleLines.contentLines content) entry) := by
  have kinds (reincludes : Bool) (text : List Char) :=
    mem_ofKind (RuleLines.contentLines content) nested reincludes text
  -- No line has brackets, so nothing in it can keep the text from being compiled.
  have readable : ∀ pattern ∈ (RuleLines.ofContent content).ignoring ++
      (RuleLines.ofContent content).reincluding,
        ∃ regex, (Rule.compile pattern).regex = .ok regex := by
    intro pattern listed
    obtain ⟨rule, rfl⟩ : ∃ rule : NestedRule, rule.pattern = pattern := by
      rcases List.mem_append.mp listed with listed | listed
      · obtain ⟨rule, _, _, same⟩ := (kinds false pattern).mp listed
        exact ⟨rule, same⟩
      · obtain ⟨rule, _, _, same⟩ := (kinds true pattern).mp listed
        exact ⟨rule, same⟩
    rw [← rule.glob_text]
    exact rule.glob.exists_regex
  obtain ⟨rules, returned, ignoring, reincluding⟩ := Ruleset.ofContent_compiled content readable
  refine ⟨rules, returned, ?_⟩
  rw [Ruleset.denies_iff rules _ _ ignoring reincluding, normal, denied_iff]
  constructor
  · rintro ⟨_, listed, reaches, further⟩
    obtain ⟨rule, member, kind, rfl⟩ := (kinds false _).mp listed
    have hits := (rule.reach_pos_iff entry).mp reaches
    refine ⟨rule, member, kind, hits, fun other present again hitsToo => ?_⟩
    exact (reach_lt_iff other rule entry hitsToo hits).mp
      (further _ ((kinds true _).mpr ⟨other, present, again, rfl⟩))
  · rintro ⟨rule, member, kind, hits, deeper⟩
    have reaches := (rule.reach_pos_iff entry).mpr hits
    refine ⟨_, (kinds false _).mpr ⟨rule, member, kind, rfl⟩, reaches, fun _ listed => ?_⟩
    obtain ⟨other, present, again, rfl⟩ := (kinds true _).mp listed
    by_cases hitsToo : other.Hits entry
    · exact (reach_lt_iff other rule entry hitsToo hits).mpr (deeper other present again hitsToo)
    · rw [← other.reach_pos_iff entry] at hitsToo
      omega

/-- The line `/a`. -/
def ignoredEntry : NestedRule where
  reincludes := false
  words := [['a']]
  directory := false
  nonempty := by simp
  plain := by simp

/-- The line `!/a/b/`. -/
def keptDirectory : NestedRule where
  reincludes := true
  words := [['a'], ['b']]
  directory := true
  nonempty := by simp
  plain := by simp

/-- The path `/a/b/`. -/
def subdirectory : EntryPath where
  components := [['a'], ['b']]
  trailing := true
  nonempty := by simp
  names := by
    intro component member
    simp only [List.mem_cons, List.not_mem_nil, or_false] at member
    rcases member with rfl | rfl <;> exact ⟨by decide, by decide, by decide⟩

theorem denies_subdirectory :
    AllNested (RuleLines.contentLines "/a\n!/a/b/".toList) ∧
      normalizePath "a\\b\\".toList = subdirectory.text ∧
      ∃ rules, Ruleset.ofContent "/a\n!/a/b/".toList = .ok rules ∧
        rules.denies "a\\b\\".toList = false := by
  have lines : RuleLines.contentLines "/a\n!/a/b/".toList =
      [ignoredEntry.line, keptDirectory.line] := by decide
  have nested : AllNested (RuleLines.contentLines "/a\n!/a/b/".toList) := by
    intro text member
    rw [lines] at member
    simp only [List.mem_cons, List.not_mem_nil, or_false] at member
    exact .inr (member.elim (fun same => ⟨_, same⟩) fun same => ⟨_, same⟩)
  have normal : normalizePath "a\\b\\".toList = subdirectory.text := by decide
  obtain ⟨rules, returned, denied⟩ := denies_by_depth _ nested _ subdirectory normal
  refine ⟨nested, normal, rules, returned, ?_⟩
  rw [Bool.eq_false_iff, ne_eq, denied]
  rintro ⟨_, decides⟩
  have listed : keptDirectory.line ∈ RuleLines.contentLines "/a\n!/a/b/".toList := by
    rw [lines]
    exact List.mem_cons_of_mem _ (List.mem_singleton_self _)
  have ignores := decides keptDirectory listed ⟨[], rfl, fun _ => .inr rfl⟩
    fun other _ hits => by
      obtain ⟨rest, components, _⟩ := hits
      have length := congrArg List.length components
      simp only [subdirectory, keptDirectory, List.length_append, List.length_cons,
        List.length_nil] at length ⊢
      omega
  cases ignores

/-- The path `/a\b`, which has one component between its slashes. -/
def backslashed : EntryPath where
  components := [['a', '\\', 'b']]
  trailing := false
  nonempty := by simp
  names := by
    intro component member
    simp only [List.mem_cons, List.not_mem_nil, or_false] at member
    subst member
    exact ⟨by decide, by decide, by decide⟩

/-- What lies between the slashes of a path is not always a component. -/
theorem backslash_separates :
    ¬∀ content, AllNested (RuleLines.contentLines content) → ∀ entry : EntryPath,
      ∃ rules, Ruleset.ofContent content = .ok rules ∧
        (rules.denies entry.text = true ↔ Denied (RuleLines.contentLines content) entry) := by
  intro separated
  have lines : RuleLines.contentLines "/a".toList = [ignoredEntry.line] := by decide
  have nested : AllNested (RuleLines.contentLines "/a".toList) := by
    intro text member
    rw [lines] at member
    exact .inr ⟨ignoredEntry, List.mem_singleton.mp member⟩
  obtain ⟨rules, returned, denied⟩ := separated "/a".toList nested backslashed
  have verdict : (Ruleset.ofContent "/a".toList).map (·.denies backslashed.text) = .ok true := by
    decide +kernel
  rw [returned] at verdict
  obtain ⟨⟨rule, _, rest, components, _⟩, _⟩ := denied.mp (Except.ok.inj verdict)
  -- A rule that hits the path would have to spell out the backslash.
  obtain ⟨word, words, same⟩ := List.exists_cons_of_ne_nil rule.nonempty
  rw [same] at components
  obtain ⟨spelled, _⟩ := List.cons.inj components
  have plain := (rule.plain word (by simp [same])).2 '\\' (by simp [← spelled])
  revert plain
  decide

end NestedRule
end IgnoreRules
