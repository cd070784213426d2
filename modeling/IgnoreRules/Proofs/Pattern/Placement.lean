import IgnoreRules.Proofs.Pattern.Hits
import IgnoreRules.Text.AsciiNames

/-!
# Where matches lie

A match of a rule begins at a separator and ends behind one or with the path, and the flags of the
rule say which of these it may be. Between its ends nothing depends on the place. So an unrooted
rule is the rooted one tried at every separator of the path, and text in front of the path takes no
match away.
-/

namespace IgnoreRules.Rule

open Pattern
open Regex (Reads sequence)

/-! ## Matches and the flags of a rule -/

/-- A match that begins and ends with entries of a path, as the flags of its rule ask for. -/
structure Aligned (rule : Rule) (path : List Char) (hit : Regex.Hit) : Prop where
  slice : (path.drop hit.start).take hit.text.length = hit.text
  nonempty : 0 < hit.text.length
  begins : path[hit.start]? = some '/'
  rooted : rule.rooted = true → hit.start = 0
  directory : rule.directoryOnly = true → hit.text.getLast? = some '/'
  entry : rule.directoryOnly = false →
    hit.start + hit.text.length = path.length ∨ hit.text.getLast? = some '/'

/-- What an expression with the prefix and the suffix of a rule matches is aligned, unless the path
ends in a line feed that the match may leave out. -/
theorem aligned_of_matches (rule : Rule) (pieces : List Regex) (before text after : List Char)
    (inLine : (before ++ text ++ after).getLast? ≠ some '\n')
    (matched : (sequence (opening rule.rooted ++ pieces ++ closing rule.directoryOnly)).Matches
      before.length text after) :
    Aligned rule (before ++ text ++ after) ⟨before.length, text⟩ := by
  obtain ⟨start, body, last, rfl, _, ended⟩ := (matches_whole _ _ _ _ _ _).mp matched
  have separated (closed : last = ['/']) : ('/' :: (body ++ last)).getLast? = some '/' := by
    rw [closed, ← List.cons_append]
    exact List.getLast?_concat
  refine ⟨?_, Nat.succ_pos _, by simp, start, fun directory => ?_, fun _ => ?_⟩
  · rw [List.append_assoc, List.drop_left, List.take_left]
  · rcases ended with closed | ⟨entry, _⟩
    · exact separated closed
    · rw [directory] at entry
      cases entry
  · rcases ended with closed | ⟨_, rfl, final⟩
    · exact .inr (separated closed)
    · left
      obtain rfl := Regex.eq_nil_of_getLast? _ _ inLine final
      simp

/-- Whatever the pattern, every match that is found in a path is aligned with its entries. Only a
pattern in which a character code is too large has no rule to find one. -/
theorem search_aligned [Text.CharacterNames] (pattern path : List Char)
    (inLine : path.getLast? ≠ some '\n') :
    Unreadable pattern ∨ ∃ regex, (compile pattern).regex = .ok regex ∧
      ∀ hit, regex.search path = some hit → Aligned (compile pattern) path hit := by
  refine (Classical.em _).imp_right fun readable => ?_
  obtain ⟨pieces, _, reads⟩ := reads_compile pattern readable
  refine ⟨_, reads.read, fun ⟨start, text⟩ found => ?_⟩
  obtain ⟨before, after, rfl, rfl, matched⟩ := Regex.search_sound _ path _ found
  exact aligned_of_matches (compile pattern) pieces before text after inLine matched

/-- The rule `[]*/x` has the class `[][^\/]*`, which runs on into the star and its fragment. In
`/]]/x/y` it finds `/]]/x/`. -/
theorem search_aligned_runOn :
    "/]]/x/y".toList.getLast? ≠ some '\n' ∧
      ∃ regex hit, (compile "[]*/x".toList).regex = .ok regex ∧
        regex.search "/]]/x/y".toList = some hit ∧ hit.text = "/]]/x/".toList ∧
        Aligned (compile "[]*/x".toList) "/]]/x/y".toList hit := by
  have inLine : "/]]/x/y".toList.getLast? ≠ some '\n' := by decide
  obtain ⟨regex, read, hit⟩ : ∃ regex, (compile "[]*/x".toList).regex = .ok regex ∧
      regex.search "/]]/x/y".toList = some ⟨0, "/]]/x/".toList⟩ := ok_of_view (by decide +kernel)
  have readable := (readable_iff _).mp ⟨regex, read⟩
  obtain ⟨found, readToo, aligned⟩ :=
    (search_aligned "[]*/x".toList "/]]/x/y".toList inLine).resolve_left readable
  obtain rfl : found = regex := Except.ok.inj (readToo.symm.trans read)
  exact ⟨inLine, found, _, read, hit, rfl, aligned _ hit⟩

/-! ## Rules at any depth -/

theorem Outline.ofPattern_separator (pattern : List Char) (bare : pattern.head? ≠ some '/') :
    Outline.ofPattern ('/' :: pattern) = { Outline.ofPattern pattern with rooted := true } := by
  simp [Outline.ofPattern, bare]

/-- A rule is rooted wherever its outline is. -/
theorem head?_of_unrooted [Text.CharacterNames] (pattern : List Char)
    (unrooted : (compile pattern).rooted = false) :
    pattern.head? ≠ some '/' := by
  rw [compile_eq] at unrooted
  simp only [assemble, Bool.or_eq_false_iff] at unrooted
  exact of_decide_eq_false unrooted.1

theorem openingSource_rooted : openingSource true = '^' :: openingSource false := rfl

/-- A rooted outline puts an anchor in front of the source of a rule and leaves its other flag as it
is. -/
theorem assemble_rooted (pattern rest : List Char) (outline : Outline) (division : Division)
    (unrooted : (assemble rest outline division).rooted = false) :
    (assemble pattern { outline with rooted := true } division).directoryOnly =
        (assemble rest outline division).directoryOnly ∧
      (assemble pattern { outline with rooted := true } division).source =
        '^' :: (assemble rest outline division).source := by
  have directoryOnly : (assemble pattern { outline with rooted := true } division).directoryOnly =
      (assemble rest outline division).directoryOnly := by simp only [assemble]
  have rooted : (assemble pattern { outline with rooted := true } division).rooted = true := by
    simp only [assemble, Bool.true_or]
  rw [assemble_source, assemble_source, unrooted, rooted, directoryOnly, openingSource_rooted]
  exact ⟨rfl, rfl⟩

/-- A separator in front of an unrooted pattern anchors its rule and changes nothing else. -/
theorem compile_separator [Text.CharacterNames] (pattern : List Char)
    (unrooted : (compile pattern).rooted = false) :
    (compile ('/' :: pattern)).directoryOnly = (compile pattern).directoryOnly ∧
      (compile ('/' :: pattern)).source = '^' :: (compile pattern).source := by
  have outline := Outline.ofPattern_separator pattern (head?_of_unrooted pattern unrooted)
  have divided := division_congr pattern ('/' :: pattern) (by rw [outline])
  rw [compile_eq] at unrooted
  rw [compile_eq, compile_eq, outline, divided]
  exact assemble_rooted _ _ _ _ unrooted

/-- A match of an unrooted rule is one of the rooted rule in the path from there on. -/
theorem matches_unrooted_iff (directoryOnly : Bool) (pieces : List Regex)
    (body : ∀ piece ∈ pieces, BodyPiece piece) (position : Nat) (text after : List Char) :
    (sequence (opening false ++ pieces ++ closing directoryOnly)).Matches position text after ↔
      (sequence (opening true ++ pieces ++ closing directoryOnly)).Matches 0 text after := by
  rw [matches_whole, matches_whole]
  simp only [Bool.false_eq_true, false_implies, forall_const, true_and]
  constructor
  all_goals
    rintro ⟨found, last, rfl, matched, ended⟩
    exact ⟨found, last, rfl, matches_pieces_anywhere pieces body _ _ _ _ _ matched, ended⟩

/-- An unrooted rule hits a path if the rule with a separator in front of its pattern hits what
stands in the path from one of its separators on. So it hits the path with any text in front. If one
of the two has no expression, because a character code is too large, neither has. -/
theorem unrooted_hits_iff [Text.CharacterNames] (pattern : List Char)
    (unrooted : (compile pattern).rooted = false) :
    (Unreadable pattern ∧ Unreadable ('/' :: pattern)) ∨
      ∃ regex anchored, (compile pattern).regex = .ok regex ∧
        (compile ('/' :: pattern)).regex = .ok anchored ∧
        ∀ path, (regex.hits path = true ↔
            ∃ below, below <:+ path ∧ below.head? = some '/' ∧ anchored.hits below = true) ∧
          (regex.hits path = true → ∀ front, regex.hits (front ++ path) = true) := by
  have outline := Outline.ofPattern_separator pattern (head?_of_unrooted pattern unrooted)
  have alike := unreadable_congr pattern ('/' :: pattern) (by rw [outline])
  refine (Classical.em (Unreadable pattern)).imp (fun broken => ⟨broken, alike.mpr broken⟩)
    fun readable => ?_
  obtain ⟨pieces, body, reads⟩ := reads_compile pattern readable
  obtain ⟨directoryOnly, source⟩ := compile_separator pattern unrooted
  rw [unrooted] at reads
  have start : Reads ['^'] [.atStart] := ⟨_, rfl, .piece _⟩
  have rooted := start.append reads
  rw [List.singleton_append, ← source] at rooted
  refine ⟨_, _, reads.read, rooted.read, fun path => ⟨?_, fun hit front => ?_⟩⟩
  · simp only [Regex.hits_iff]
    constructor
    · rintro ⟨before, text, after, rfl, matched⟩
      have found := (matches_unrooted_iff _ _ body _ _ _).mp matched
      obtain ⟨_, inner, last, rfl, _⟩ := (matches_whole _ _ _ _ _ _).mp found
      exact ⟨_, ⟨before, (List.append_assoc _ _ _).symm⟩, rfl, [], _, after, rfl, found⟩
    · rintro ⟨_, ⟨before, rfl⟩, _, front, text, after, rfl, matched⟩
      obtain ⟨start, _⟩ := (matches_whole true _ _ _ _ _).mp matched
      rw [start rfl] at matched
      exact ⟨before ++ front, text, after, by simp,
        (matches_unrooted_iff _ _ body _ _ _).mpr matched⟩
  · rw [Regex.hits_iff] at hit ⊢
    obtain ⟨before, text, after, rfl, matched⟩ := hit
    have found := (matches_unrooted_iff _ _ body _ _ _).mp matched
    exact ⟨front ++ before, text, after, by simp, (matches_unrooted_iff _ _ body _ _ _).mpr found⟩

/-- The rule `[z-a]?`, whose brackets are ordinary characters, hits `/d/[z-a]1/x` because `/[z-a]?`
hits `/[z-a]1/x`. -/
theorem unrooted_hits_literal :
    (compile "[z-a]?".toList).rooted = false ∧
      ∃ regex anchored, (compile "[z-a]?".toList).regex = .ok regex ∧
        (compile "/[z-a]?".toList).regex = .ok anchored ∧
        anchored.hits "/[z-a]1/x".toList = true ∧ anchored.hits "/d/[z-a]1/x".toList = false ∧
        regex.hits "/d/[z-a]1/x".toList = true ∧ regex.hits "e/d/[z-a]1/x".toList = true := by
  have unrooted : (compile "[z-a]?".toList).rooted = false := by decide +kernel
  obtain ⟨anchored, known, below⟩ : ∃ anchored, (compile "/[z-a]?".toList).regex = .ok anchored ∧
      (anchored.hits "/[z-a]1/x".toList, anchored.hits "/d/[z-a]1/x".toList) = (true, false) :=
    ok_of_view (by decide +kernel)
  obtain ⟨first, deeper⟩ := Prod.ext_iff.mp below
  have readable : ¬Unreadable "/[z-a]?".toList := (readable_iff _).mp ⟨anchored, known⟩
  obtain ⟨regex, other, read, knownToo, hits⟩ :=
    (unrooted_hits_iff "[z-a]?".toList unrooted).resolve_left fun both => readable both.2
  obtain rfl : other = anchored := Except.ok.inj (knownToo.symm.trans known)
  obtain ⟨found, above⟩ := hits "/d/[z-a]1/x".toList
  have hit := found.mpr ⟨"/[z-a]1/x".toList, ⟨"/d".toList, rfl⟩, rfl, first⟩
  exact ⟨unrooted, regex, other, read, known, first, deeper, hit, above hit "e".toList⟩

end IgnoreRules.Rule
