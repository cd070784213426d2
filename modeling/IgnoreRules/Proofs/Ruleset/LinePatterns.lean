import IgnoreRules.Proofs.Ruleset.Layout
import Mathlib.Data.List.DropRight

/-!
# The patterns of rule lines

A pattern is compiled as it stands, so it should be one line, should not be empty and should have no
blanks around it. What a line says is trimmed before its mark is looked at. An ignoring line is its
own pattern, and nothing is wrong with that. A re-including line is trimmed with its `!`, so the
pattern behind it may be empty or start with a blank.
-/

namespace IgnoreRules

namespace Text

private theorem trim_eq (text : List Char) :
    trim text = (text.dropWhile isBlank).rdropWhile isBlank := rfl

/-- Nothing is trimmed from a text with a visible character at both ends. -/
theorem trim_eq_self_iff (text : List Char) :
    trim text = text ↔
      ∀ some : text ≠ [],
        isBlank (text.head some) = false ∧ isBlank (text.getLast some) = false := by
  constructor
  · intro same some
    -- Each half of the trimming makes a text no longer, so neither has taken anything away.
    have shorter := (List.rdropWhile_prefix isBlank (text.dropWhile isBlank)).length_le
    rw [← trim_eq, same] at shorter
    have front : text.dropWhile isBlank = text :=
      (List.dropWhile_suffix isBlank).eq_of_length_le shorter
    rw [trim_eq, front] at same
    have last := List.rdropWhile_eq_self_iff.mp same some
    have first := List.head_dropWhile_not isBlank (by rwa [front])
    simp only [front] at first
    exact ⟨first, by simpa using last⟩
  · intro visible
    have front : text.dropWhile isBlank = text := by
      cases text with
      | nil => rfl
      | cons c text => exact List.dropWhile_cons_of_neg (by simpa using (visible (by simp)).1)
    rw [trim_eq, front, List.rdropWhile_eq_self_iff]
    exact fun some => by simpa using (visible some).2

/-- Trimming leaves no blank at the ends. -/
theorem trim_trim (text : List Char) : trim (trim text) = trim text := by
  rw [trim_eq_self_iff]
  simp only [trim_eq]
  intro some
  have last := List.rdropWhile_last_not isBlank (text.dropWhile isBlank) some
  refine ⟨?_, by simpa using last⟩
  have front := (List.rdropWhile_prefix isBlank (text.dropWhile isBlank)).head some
  rw [front]
  exact List.head_dropWhile_not isBlank _

theorem mem_of_mem_trim (text : List Char) (c : Char) (member : c ∈ trim text) : c ∈ text := by
  have behind := (List.rdropWhile_prefix isBlank (text.dropWhile isBlank)).subset member
  exact (List.dropWhile_suffix isBlank).subset behind

/-- What ends a line belongs to no line. -/
theorem not_endsLine_of_mem (text : List Char) :
    ∀ line ∈ splitLines text, ∀ c ∈ line, endsLine c = false := by
  fun_induction splitLines text with
  | case1 => simp
  | case2 rest ih => simpa using ih
  | case3 c rest _ ends ih => simpa using ih
  | case4 c rest _ inside ih =>
    have first : endsLine c = false := by simpa [endsLine] using inside
    cases split : splitLines rest with
    | nil => simpa [consToFirst] using first
    | cons line lines =>
      rw [split] at ih
      simp only [consToFirst, List.mem_cons, forall_eq_or_imp] at ih ⊢
      exact ⟨⟨first, ih.1⟩, ih.2⟩

end Text

namespace RuleLines

/-- A pattern as compiling expects it. -/
structure Neat (pattern : List Char) : Prop where
  nonempty : pattern ≠ []
  trimmed : Text.trim pattern = pattern
  carriageReturn : '\r' ∉ pattern
  lineFeed : '\n' ∉ pattern

/-- A line that holds a rule is neat as long as its mark is part of it. -/
theorem neat_of_mem_rules (content line : List Char) (member : line ∈ rules content) :
    Neat line := by
  rw [← contentLines_rules, List.mem_filter] at member
  obtain ⟨listed, holds⟩ := member
  obtain ⟨whole, split, rfl⟩ := List.mem_map.mp listed
  have apart (c : Char) (ends : Text.endsLine c = true) : c ∉ Text.trim whole := by
    intro inside
    have other := Text.not_endsLine_of_mem content whole split c (Text.mem_of_mem_trim _ c inside)
    simp [ends] at other
  exact ⟨by simp_all [holdsRule], Text.trim_trim whole, apart '\r' rfl, apart '\n' rfl⟩

/-- What a neat line says behind its `!` can only be amiss in front. -/
theorem neat_behind_iff (pattern : List Char) (neat : Neat ('!' :: pattern)) :
    Neat pattern ↔ ∃ c ∈ pattern.head?, Text.isBlank c = false := by
  have outside (c : Char) (absent : c ∉ '!' :: pattern) : c ∉ pattern :=
    fun member => absent (List.mem_cons_of_mem _ member)
  cases pattern with
  | nil => exact iff_of_false (fun neat => neat.nonempty rfl) (by simp)
  | cons c rest =>
    have ends := (Text.trim_eq_self_iff _).mp neat.trimmed (by simp)
    simp only [List.head?_cons, Option.mem_def, Option.some.injEq, exists_eq_left']
    constructor
    · intro behind
      exact ((Text.trim_eq_self_iff _).mp behind.trimmed (by simp)).1
    · intro visible
      have trimmed : Text.trim (c :: rest) = c :: rest :=
        (Text.trim_eq_self_iff _).mpr fun _ => ⟨visible, by simpa using ends.2⟩
      exact ⟨by simp, trimmed, outside '\r' neat.carriageReturn, outside '\n' neat.lineFeed⟩

/-- Ignoring lines hand on neat patterns. Re-including lines are neat with their `!`, and the
pattern behind it is so only if it starts with a visible character. -/
theorem ofContent_neat (content : List Char) :
    (∀ pattern ∈ (ofContent content).ignoring, Neat pattern) ∧
      ∀ pattern ∈ (ofContent content).reincluding, Neat ('!' :: pattern) ∧
        (Neat pattern ↔ ∃ c ∈ pattern.head?, Text.isBlank c = false) := by
  rw [ofContent_rules]
  constructor
  · intro pattern member
    exact neat_of_mem_rules content pattern (List.mem_of_mem_filter member)
  · intro pattern member
    obtain ⟨line, kept, rfl⟩ := List.mem_map.mp member
    obtain ⟨member, marked⟩ := List.mem_filter.mp kept
    obtain ⟨rest, rfl⟩ := List.head?_eq_some_iff.mp (of_decide_eq_true marked)
    have neat := neat_of_mem_rules content _ member
    exact ⟨neat, neat_behind_iff rest neat⟩

/-- Blanks around a line are trimmed, and those behind its `!` are not. -/
theorem ofContent_neat_marked :
    "a".toList ∈ (ofContent "a \r! b\n!c ".toList).ignoring ∧
      " b".toList ∈ (ofContent "a \r! b\n!c ".toList).reincluding ∧
      "c".toList ∈ (ofContent "a \r! b\n!c ".toList).reincluding ∧
      Neat "a".toList ∧ ¬Neat " b".toList ∧ Neat "c".toList := by
  have patterns : ofContent "a \r! b\n!c ".toList =
      ⟨["a".toList], [" b".toList, "c".toList]⟩ := by decide +kernel
  obtain ⟨ignoring, reincluding⟩ := ofContent_neat "a \r! b\n!c ".toList
  rw [patterns] at ignoring reincluding ⊢
  have blank := (reincluding " b".toList (by simp)).2
  have visible := (reincluding "c".toList (by simp)).2
  refine ⟨by simp, by simp, by simp, ignoring _ (by simp), ?_, ?_⟩
  · intro neat
    obtain ⟨c, first, shown⟩ := blank.mp neat
    obtain rfl : ' ' = c := Option.some.inj first
    cases shown
  · exact visible.mpr ⟨'c', rfl, rfl⟩

/-- Compiling is handed a pattern that begins with a blank. -/
theorem ofContent_blank :
    ¬∀ content, (∀ pattern ∈ (ofContent content).ignoring, Neat pattern) ∧
      ∀ pattern ∈ (ofContent content).reincluding, Neat pattern := by
  intro always
  have member : " a".toList ∈ (ofContent "! a".toList).reincluding := by decide
  have neat := (always "! a".toList).2 _ member
  exact absurd neat.trimmed (by decide)

end RuleLines
end IgnoreRules
