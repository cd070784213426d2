import IgnoreRules.Proofs.Glob.Path
import IgnoreRules.Text.Blank
import Mathlib.Data.List.Chain

/-!
# Globs

A pattern without brackets and escapes is a list of segments. A word stands for the names of one
component, and `**` for any number of components. What a glob hits is said here in terms of the
components of a path alone, with no expression and no text.
-/

namespace IgnoreRules.Pattern

/-- One item of a word. -/
inductive Item
  | literal (c : Char)
  /-- `?` -/
  | anyChar
  /-- `*` -/
  | anyRun
  deriving DecidableEq, Repr

/-- A character that stands for itself. The placeholder for `**` starts with a NUL. -/
def IsLiteral (c : Char) : Prop := c ∉ ['*', '?', '[', '\\', '/', '\x00', '\n']

def Item.char : Item → Char
  | .literal c => c
  | .anyChar => '?'
  | .anyRun => '*'

/-- The items of a word, of which no two neighbours are `*`. -/
structure IsWord (items : List Item) : Prop where
  nonempty : items ≠ []
  literals : ∀ c, .literal c ∈ items → IsLiteral c
  apart : items.IsChain fun first second => ¬(first = .anyRun ∧ second = .anyRun)

/-- The names that a word stands for. -/
def Item.Accept : List Item → List Char → Prop
  | [], name => name = []
  | .literal c :: items, name => ∃ rest, name = c :: rest ∧ Accept items rest
  | .anyChar :: items, name => ∃ c rest, name = c :: rest ∧ Accept items rest
  | .anyRun :: items, name => ∃ run rest, name = run ++ rest ∧ Accept items rest

/-- What stands between two separators of a pattern. -/
inductive Segment
  | doubleStar
  | word (items : List Item)
  deriving DecidableEq, Repr

namespace Segment

def text : Segment → List Char
  | .doubleStar => ['*', '*']
  | .word items => items.map Item.char

/-- Segments of which no two neighbours are `**`. -/
structure Proper (segments : List Segment) : Prop where
  words : ∀ items, .word items ∈ segments → IsWord items
  apart : segments.IsChain fun first second => ¬(first = .doubleStar ∧ second = .doubleStar)

/-- The components that segments stand for, in order and without a gap. -/
def Accept : List Segment → List (List Char) → Prop
  | [], components => components = []
  | .doubleStar :: segments, components =>
    ∃ skipped rest, components = skipped ++ rest ∧ Accept segments rest
  | .word items :: segments, components =>
    ∃ name rest, components = name :: rest ∧ Item.Accept items name ∧ Accept segments rest

/-- The text of segments, without a separator at either end. -/
def join (segments : List Segment) : List Char := ['/'].intercalate (segments.map text)

end Segment

/-- A pattern without brackets and escapes. -/
structure Glob where
  /-- It is written with a separator in front. -/
  rooted : Bool
  segments : List Segment
  /-- It is written with a separator behind. -/
  directory : Bool
  nonempty : segments ≠ []
  proper : Segment.Proper segments
  /-- A blank text between the separators at the ends is dropped when the pattern is compiled. -/
  visible : ∃ c ∈ Segment.join segments, Text.isBlank c = false

namespace Glob

/-- The pattern line. -/
def text (glob : Glob) : List Char :=
  ending glob.rooted ++ Segment.join glob.segments ++ ending glob.directory

/-- The glob starts at the directory of the rule file. -/
def Anchored (glob : Glob) : Prop := glob.rooted = true ∨ 1 < glob.segments.length

/-- The glob hits nothing but directories and what is in them. -/
def ForDirectories (glob : Glob) : Prop :=
  glob.directory = true ∨
    (1 < glob.segments.length ∧ glob.segments.getLast? = some .doubleStar)

/-- The segments stand for a stretch of the components of a path. A glob that is nothing but `**`
takes at least one of them. -/
structure HitsAt (glob : Glob) (path : EntryPath) (before taken after : List (List Char)) :
    Prop where
  components : path.components = before ++ taken ++ after
  anchored : glob.Anchored → before = []
  accepted : Segment.Accept glob.segments taken
  nonempty : glob.segments = [.doubleStar] → taken ≠ []
  inside : glob.ForDirectories → after ≠ [] ∨ path.trailing = true

def Hits (glob : Glob) (path : EntryPath) : Prop :=
  ∃ before taken after, glob.HitsAt path before taken after

end Glob

/-! ## Words and segments -/

theorem Segment.Proper.tail {segment : Segment} {segments : List Segment}
    (proper : Proper (segment :: segments)) : Proper segments where
  words items member := proper.words items (by simp [member])
  apart := proper.apart.tail

/-- `**` is followed by a word. -/
theorem Segment.Proper.next {segment : Segment} {segments : List Segment}
    (proper : Proper (.doubleStar :: segment :: segments)) :
    ∃ items, segment = .word items ∧ IsWord items := by
  cases segment with
  | doubleStar => exact absurd ⟨rfl, rfl⟩ proper.apart.rel
  | word items => exact ⟨items, rfl, proper.words items (by simp)⟩

/-- The characters of a word, none of which has a meaning but `?` and `*`. -/
theorem IsWord.char {items : List Item} (word : IsWord items) (item : Item)
    (member : item ∈ items) : item.char ∉ ['[', '\\', '/', '\x00', '\n'] := by
  cases item with
  | literal c =>
    have ordinary := word.literals c member
    simp only [IsLiteral, List.mem_cons, List.not_mem_nil, or_false, not_or] at ordinary
    simp [Item.char, ordinary]
  | anyChar | anyRun => decide

/-- A word stands for no empty name, unless it is nothing but `*`. -/
theorem IsWord.name_nonempty {items : List Item} (word : IsWord items) (more : items ≠ [.anyRun])
    (name : List Char) (accepted : Item.Accept items name) : name ≠ [] := by
  cases items with
  | nil => exact absurd rfl word.nonempty
  | cons first items =>
    cases first with
    | literal c =>
      obtain ⟨rest, rfl, _⟩ := accepted
      simp
    | anyChar =>
      obtain ⟨c, rest, rfl, _⟩ := accepted
      simp
    | anyRun =>
      -- The run may be empty, but then the item behind it takes a character.
      obtain ⟨run, rest, rfl, accepted⟩ := accepted
      cases items with
      | nil => exact absurd rfl more
      | cons second items =>
        cases second with
        | literal c =>
          obtain ⟨rest, rfl, _⟩ := accepted
          simp
        | anyChar =>
          obtain ⟨c, rest, rfl, _⟩ := accepted
          simp
        | anyRun => exact absurd ⟨rfl, rfl⟩ word.apart.rel

/-- Segments with a separator before each are the joined text with one in front. -/
theorem Segment.trail_text (segments : List Segment) (nonempty : segments ≠ []) :
    trail (segments.map text) = '/' :: join segments :=
  trail_intercalate _ (by simpa using nonempty)

/-- The text of a segment is a name itself. -/
theorem Segment.Proper.name {segments : List Segment} (proper : Proper segments)
    (segment : Segment) (member : segment ∈ segments) : IsName segment.text := by
  cases segment with
  | doubleStar => exact ⟨by simp [text], by decide, by decide⟩
  | word items =>
    have word := proper.words items member
    refine ⟨by simpa [text] using word.nonempty, ?_, ?_⟩ <;>
    · intro present
      obtain ⟨item, inside, same⟩ := List.mem_map.mp present
      have ordinary := word.char item inside
      simp [same] at ordinary

/-- No character of a glob starts a bracket or an escape. -/
theorem Segment.Proper.plain {segments : List Segment} (proper : Proper segments)
    (nonempty : segments ≠ []) : '[' ∉ join segments ∧ '\\' ∉ join segments := by
  have each (c : Char) (special : c = '[' ∨ c = '\\') : c ∉ join segments := by
    intro present
    have member : c ∈ trail (segments.map text) := by
      rw [trail_text segments nonempty]
      exact List.mem_cons_of_mem _ present
    simp only [trail, List.mem_flatMap, List.mem_map] at member
    obtain ⟨_, ⟨segment, listed, rfl⟩, inside⟩ := member
    rcases List.mem_cons.mp inside with rfl | inside
    · simp at special
    · cases segment with
      | doubleStar =>
        simp only [text, List.mem_cons, List.not_mem_nil, or_false, or_self] at inside
        simp [inside] at special
      | word items =>
        obtain ⟨item, within, rfl⟩ := List.mem_map.mp inside
        have ordinary := (proper.words items listed).char item within
        rcases special with special | special <;> simp [special] at ordinary
  exact ⟨each '[' (.inl rfl), each '\\' (.inr rfl)⟩

end IgnoreRules.Pattern
