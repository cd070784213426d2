import IgnoreRules.Proofs.Settings.Lookup
import Mathlib.Data.List.Induction

/-!
# What the variables of an environment give

A variable gives one setting, or none, and its name tells which. Each variable puts its value under
the group and the name of the setting and leaves everything else as it was, so under a group and a
name stands the value of the last variable that gives this setting.
-/

namespace IgnoreRules

theorem Value.lookup?_putEntry (entries : List (Value × Value)) (key other : String)
    (value : Value) :
    lookup? (putEntry entries (.text key) value) other =
      if key = other then some value else lookup? entries other := by
  induction entries with
  | nil =>
    by_cases same : key = other
    · simp [lookup?, putEntry, sameKey_text_iff, same]
    · simp [lookup?, putEntry, sameKey_text_iff, same]
  | cons entry entries ih =>
    obtain ⟨first, old⟩ := entry
    simp only [lookup?] at ih
    by_cases known : first = .text key
    · subst known
      by_cases same : key = other
      · simp [lookup?, putEntry, sameKey_text_iff, same]
      · have apart : (Value.text key).sameKey (.text other) = false := by
          rw [← Bool.not_eq_true, sameKey_text_iff, Value.text.injEq]
          exact same
        simp [lookup?, putEntry, sameKey_text_iff, same, apart]
    · have skipped : first.sameKey (.text key) = false := by
        rw [← Bool.not_eq_true, sameKey_text_iff]
        exact known
      simp only [lookup?, putEntry, skipped, Bool.false_eq_true, if_false, List.find?_cons]
      cases found : first.sameKey (.text other) with
      | true =>
        have reached := (sameKey_text_iff first other).mp found
        have apart : key ≠ other := by
          rintro rfl
          exact known reached
        simp [apart]
      | false => exact ih

namespace Environment

/-- A variable gives a setting: behind the mark its name is, in lower case, the group, an underscore
and the name of the setting. The first underscore counts, and neither part is empty. -/
structure Gives (variableName group name : String) : Prop where
  spelled : ∃ rest, variableName.toList = mark.toList ++ rest ∧
    Text.lower rest = group.toList ++ '_' :: name.toList
  first : '_' ∉ group.toList
  grouped : group ≠ ""
  named : name ≠ ""

/-- The last variable that gives a setting has a value. -/
def LastGives (environment : Environment) (group name : String) (value : Value) : Prop :=
  ∃ before entry behind, environment = before ++ entry :: behind ∧
    Gives entry.1 group name ∧ valueOf entry.2 = value ∧
    ∀ later ∈ behind, ¬Gives later.1 group name

/-! ## Names of variables -/

/-- A text is cut at its first underscore, which is not its end. -/
theorem cut_iff (words group name : List Char) (named : name ≠ []) :
    words.takeWhile (· != '_') = group ∧ (words.dropWhile (· != '_')).drop 1 = name ↔
      words = group ++ '_' :: name ∧ '_' ∉ group := by
  constructor
  · rintro ⟨rfl, cut⟩
    have first : '_' ∉ words.takeWhile (· != '_') := by
      intro member
      have passed := List.all_eq_true.mp List.all_takeWhile '_' member
      cases passed
    refine ⟨?_, first⟩
    cases rest : words.dropWhile (· != '_') with
    | nil =>
      rw [rest] at cut
      exact absurd cut.symm named
    | cons c behind =>
      have stopped := List.head_dropWhile_not (· != '_') (l := words) (by simp [rest])
      have underscore : c = '_' := by simpa [rest] using stopped
      rw [rest] at cut
      subst underscore
      rw [← cut, List.drop_succ_cons, List.drop_zero, ← rest, List.takeWhile_append_dropWhile]
  · rintro ⟨rfl, first⟩
    have passed : ∀ c ∈ group, (c != '_') = true := by
      intro c member
      simp only [bne_iff_ne]
      rintro rfl
      exact first member
    rw [List.takeWhile_append_of_pos passed, List.dropWhile_append_of_pos passed]
    simp

theorem settingOf?_eq_some_iff (variableName group name : String) :
    settingOf? variableName = some (group, name) ↔ Gives variableName group name := by
  constructor
  · intro read
    simp only [settingOf?] at read
    split at read
    next marked =>
      obtain ⟨rest, split⟩ := List.isPrefixOf_iff_prefix.mp marked
      split at read
      · cases read
      next filled =>
        simp only [Bool.or_eq_true, not_or, List.isEmpty_iff] at filled
        obtain ⟨grouped, named⟩ := filled
        simp only [Option.some.injEq, Prod.mk.injEq] at read
        obtain ⟨rfl, rfl⟩ := read
        have dropped : variableName.toList.drop mark.length = rest := by
          rw [← split]
          rfl
        rw [dropped] at grouped named ⊢
        obtain ⟨spelled, first⟩ := (cut_iff _ _ _ named).mp ⟨rfl, rfl⟩
        refine ⟨⟨rest, split.symm, ?_⟩, ?_, ?_, ?_⟩
        · simpa using spelled
        · simpa using first
        · simpa using grouped
        · simpa using named
    · cases read
  · rintro ⟨⟨rest, split, spelled⟩, first, grouped, named⟩
    have marked : mark.toList.isPrefixOf variableName.toList = true :=
      List.isPrefixOf_iff_prefix.mpr ⟨rest, split.symm⟩
    have dropped : variableName.toList.drop mark.length = rest := by
      rw [split]
      rfl
    obtain ⟨front, back⟩ := (cut_iff _ _ _ (by simpa using named)).mpr ⟨spelled, first⟩
    simp only [settingOf?, marked, if_true, dropped, front, back]
    simp [grouped, named]

/-! ## Values of variables -/

theorem valueOf_ne_null (text : String) : valueOf text ≠ .null := by
  simp only [valueOf]
  split
  · simp
  split
  · simp
  cases Number.readInt? text.toList with
  | some number => simp
  | none =>
    cases Number.readDouble? text.toList with
    | some number => simp
    | none => simp

theorem at?_pair (groups : List (Value × Value)) (group name : String) :
    (Value.map groups).at? [group, name] =
      (Value.lookup? groups group).bind fun inner => inner.field? name := by
  have outer : (Value.map groups).field? group = Value.lookup? groups group := rfl
  simp only [Value.at?, outer]
  cases Value.lookup? groups group with
  | none => rfl
  | some inner =>
    simp only [Option.bind_some]
    cases inner.field? name <;> rfl

/-- A value that is put in stands under its group and name, and nothing else changes. -/
theorem at?_putIn (groups : List (Value × Value)) (group name other key : String) (value : Value) :
    (Value.map (putIn groups group name value)).at? [other, key] =
      if group = other ∧ name = key then some value else (Value.map groups).at? [other, key] := by
  rw [at?_pair, at?_pair, putIn, Value.lookup?_putEntry]
  by_cases sameGroup : group = other
  · subst sameGroup
    simp only [if_true, Option.bind_some, Value.field?, Value.lookup?_putEntry, true_and]
    by_cases sameName : name = key
    · simp [sameName]
    · simp only [sameName, if_false]
      cases Value.lookup? groups group with
      | none => rfl
      | some inner => cases inner <;> rfl
  · simp [sameGroup]

theorem groups_append (environment : Environment) (entry : String × String) :
    (environment ++ [entry]).groups = match settingOf? entry.1 with
      | some (group, name) => putIn environment.groups group name (valueOf entry.2)
      | none => environment.groups := by
  simp only [groups, List.foldl_append]
  rfl

theorem lastGives_append (environment : Environment) (entry : String × String)
    (group name : String) (value : Value) :
    LastGives (environment ++ [entry]) group name value ↔
      Gives entry.1 group name ∧ valueOf entry.2 = value ∨
        ¬Gives entry.1 group name ∧ LastGives environment group name value := by
  constructor
  · rintro ⟨before, giving, behind, split, gives, same, last⟩
    -- The new variable is the last that gives the setting, or stands behind that one.
    rcases List.eq_nil_or_concat behind with rfl | ⟨between, final, rfl⟩
    · obtain ⟨_, ended⟩ := List.append_inj' split rfl
      obtain rfl := List.singleton_inj.mp ended
      exact .inl ⟨gives, same⟩
    · rw [List.concat_eq_append, ← List.cons_append, ← List.append_assoc] at split
      obtain ⟨earlier, ended⟩ := List.append_inj' split rfl
      obtain rfl := List.singleton_inj.mp ended
      refine .inr ⟨last entry (by simp), before, giving, between, earlier, gives, same, ?_⟩
      intro later member
      exact last later (by simp [member])
  · rintro (⟨gives, same⟩ | ⟨not_given, before, giving, behind, rfl, gives, same, last⟩)
    · exact ⟨environment, entry, [], rfl, gives, same, by simp⟩
    · refine ⟨before, giving, behind ++ [entry], by simp, gives, same, ?_⟩
      intro later member
      rcases List.mem_append.mp member with among | added
      · exact last later among
      · rw [List.mem_singleton.mp added]
        exact not_given

theorem at?_groups_iff (environment : Environment) (group name : String) (value : Value) :
    (Value.map environment.groups).at? [group, name] = some value ↔
      LastGives environment group name value := by
  -- Every variable is put in over the earlier ones, so the list is taken apart at its end.
  induction environment using List.reverseRecOn with
  | nil =>
    constructor
    · rintro ⟨⟩
    · rintro ⟨before, entry, behind, split, _⟩
      simp at split
  | append_singleton environment entry ih =>
    rw [lastGives_append, groups_append, ← settingOf?_eq_some_iff, ← ih]
    cases setting : settingOf? entry.1 with
    | none => simp
    | some given =>
      obtain ⟨otherGroup, otherName⟩ := given
      simp only [at?_putIn, Option.some.injEq, Prod.mk.injEq]
      split
      next same => simp [same]
      next apart => simp [apart]

/-- A setting for which there is a variable has a last one. -/
theorem exists_lastGives (environment : Environment) {group name : String}
    (entry : String × String) (member : entry ∈ environment) (gives : Gives entry.1 group name) :
    ∃ value, LastGives environment group name value := by
  induction environment using List.reverseRecOn with
  | nil => cases member
  | append_singleton environment final ih =>
    by_cases last : Gives final.1 group name
    · exact ⟨_, (lastGives_append _ _ _ _ _).mpr (.inl ⟨last, rfl⟩)⟩
    · rcases List.mem_append.mp member with among | added
      · obtain ⟨value, given⟩ := ih among
        exact ⟨value, (lastGives_append _ _ _ _ _).mpr (.inr ⟨last, given⟩)⟩
      · rw [List.mem_singleton.mp added] at gives
        exact absurd gives last

/-- Only the variables that give a setting matter for it. -/
theorem lastGives_filter (environment : Environment) (group name : String) (value : Value) :
    LastGives (environment.filter fun entry => settingOf? entry.1 = some (group, name))
        group name value ↔
      LastGives environment group name value := by
  induction environment using List.reverseRecOn with
  | nil => rfl
  | append_singleton environment entry ih =>
    rw [List.filter_append, lastGives_append]
    by_cases gives : Gives entry.1 group name
    · have read := (settingOf?_eq_some_iff entry.1 group name).mpr gives
      simp [read, gives, lastGives_append]
    · have read := mt (settingOf?_eq_some_iff entry.1 group name).mp gives
      simp [read, gives, ih]

end Environment
end IgnoreRules
