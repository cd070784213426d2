import IgnoreRules.Log.Logger
import IgnoreRules.Proofs.Outcome
import Mathlib.Data.List.Induction

/-!
# The context of a record

Contexts are entered and left around a logger, its level is set, and messages go to it. Whatever
has happened, a message is recorded if its level reaches the one that was set last, or where that is
0 the one that the loggers around decide on. The record carries what the open blocks and the message
itself give: each name once, where it appears first from the outermost block in, with the value that
it has innermost. A level that cannot be set is as if it had never been asked for, and a block that
has been left is as if it had never been entered.
-/

namespace IgnoreRules.Log

/-- What can happen at a logger. -/
inductive Step
  | enter (context : Context)
  | leave
  | setLevel (level : Value)
  | say (message : Record)

/-- The logger after a step. A level that cannot be set goes back to the caller as an error. -/
def Step.take (logger : Logger) : Step → Logger
  | .enter context => logger.push context
  | .leave => logger.pop
  | .setLevel level =>
    match logger.setThreshold level with
    | .ok changed => changed
    | .error _ => logger
  | .say _ => logger

def Logger.after (logger : Logger) (history : List Step) : Logger :=
  history.foldl Step.take logger

/-- A history that leaves every block that it enters, and no other. -/
inductive Closed : List Step → Prop
  | done : Closed []
  | setLevel (level : Value) {rest : List Step} (closed : Closed rest) :
      Closed (.setLevel level :: rest)
  | say (message : Record) {rest : List Step} (closed : Closed rest) :
      Closed (.say message :: rest)
  | block (context : Context) {inner rest : List Step} (inside : Closed inner)
      (closed : Closed rest) : Closed (.enter context :: inner ++ .leave :: rest)

/-- A history with these blocks still open, the outermost first. -/
inductive Opens : List Step → List Context → Prop
  | none {history : List Step} (closed : Closed history) : Opens history []
  | block {before after : List Step} {opened : List Context} (closed : Closed before)
      (context : Context) (inside : Opens after opened) :
      Opens (before ++ .enter context :: after) (context :: opened)

/-- No level is set in a history, though some may have been asked for. -/
def Unset (history : List Step) : Prop :=
  ∀ level, .setLevel level ∈ history → ∀ chosen, threshold level ≠ .ok chosen

/-- The level in force behind a history: the last one that was set, or that of the start. -/
inductive InForce (start : Value) (history : List Step) (chosen : Int) : Prop
  | start (set : threshold start = .ok chosen) (unset : Unset history)
  | changed {before after : List Step} {level : Value}
      (split : history = before ++ .setLevel level :: after) (set : threshold level = .ok chosen)
      (unset : Unset after)

/-- What messages have to reach: the own level of a logger, or if that is 0 the first level around
that is not. If all of them are 0, every message is let through. -/
inductive Decides (own : Int) (around : List Int) : Int → Prop
  | own (chosen : own ≠ 0) : Decides own around own
  | around {before behind : List Int} {level : Int} (none : own = 0)
      (split : around = before ++ level :: behind) (noneBefore : ∀ other ∈ before, other = 0)
      (chosen : level ≠ 0) : Decides own around level
  | nobody (none : own = 0) (noneAround : ∀ other ∈ around, other = 0) : Decides own around 0

/-- The names that some places give, in the order in which they appear first. -/
def namesOf (places : List Context) : List String := (places.flatten.map (·.1)).eraseDups

/-- The value of a name in the innermost of some places that gives it, where the places go from the
outermost in. What a place gives more than once it gives last. -/
def innermost? (places : List Context) (name : String) : Option Value :=
  places.reverse.findSome? fun place => place.reverse.lookup name

/-- A context that holds what some places give. -/
structure Merges (places : List Context) (context : Context) : Prop where
  names : context.map (·.1) = namesOf places
  values : ∀ name, context.lookup name = innermost? places name

/-! ## Contexts -/

namespace Context

theorem lookup_cons (name other : String) (value : Value) (rest : Context) :
    List.lookup other ((name, value) :: rest) =
      if other = name then some value else rest.lookup other := by
  by_cases same : other = name
  · simp [same]
  · simp [List.lookup_cons, same, beq_false_of_ne same]

theorem names_put (context : Context) (name : String) (value : Value) :
    (context.put name value).map (·.1) =
      if name ∈ context.map (·.1) then context.map (·.1) else context.map (·.1) ++ [name] := by
  induction context with
  | nil => rfl
  | cons entry rest ih =>
    obtain ⟨first, old⟩ := entry
    by_cases same : first = name
    · simp [put, same]
    · rw [put, if_neg same, List.map_cons, ih]
      by_cases known : name ∈ rest.map (·.1)
      · have found : name ∈ ((first, old) :: rest).map (·.1) := List.mem_cons_of_mem _ known
        rw [if_pos known, if_pos found, List.map_cons]
      · have new : name ∉ ((first, old) :: rest).map (·.1) :=
          List.not_mem_cons_of_ne_of_not_mem (Ne.symm same) known
        rw [if_neg known, if_neg new, List.map_cons, List.cons_append]

theorem lookup_put (context : Context) (name other : String) (value : Value) :
    (context.put name value).lookup other =
      if other = name then some value else context.lookup other := by
  induction context with
  | nil => rw [put, lookup_cons]
  | cons entry rest ih =>
    obtain ⟨first, old⟩ := entry
    by_cases same : first = name
    · rw [put, if_pos same, lookup_cons, lookup_cons, same]
      split <;> rfl
    · rw [put, if_neg same, lookup_cons, lookup_cons, ih]
      by_cases found : other = first
      · rw [if_pos found, if_pos found, if_neg (found ▸ same)]
      · rw [if_neg found, if_neg found]

theorem eraseDups_concat (names : List String) (name : String) :
    (names ++ [name]).eraseDups =
      if name ∈ names.eraseDups then names.eraseDups else names.eraseDups ++ [name] := by
  by_cases known : name ∈ names
  · simp [List.eraseDups_append, List.removeAll, known]
  · simp [List.eraseDups_append, List.removeAll, known, List.eraseDups_cons]

theorem update_concat (context newer : Context) (entry : String × Value) :
    context.update (newer ++ [entry]) = (context.update newer).put entry.1 entry.2 := by
  rw [update, List.foldl_append]
  rfl

/-- Entry by entry, a context takes the place of the first and the value of the last. -/
theorem update_names (entries : Context) :
    (update [] entries).map (·.1) = (entries.map (·.1)).eraseDups := by
  induction entries using List.reverseRecOn with
  | nil => rfl
  | append_singleton entries entry ih =>
    rw [update_concat, names_put, ih, List.map_append, List.map_singleton, eraseDups_concat]

theorem lookup_update (context newer : Context) (name : String) :
    (context.update newer).lookup name = (newer.reverse.lookup name).or (context.lookup name) := by
  induction newer using List.reverseRecOn with
  | nil => rfl
  | append_singleton newer entry ih =>
    -- The last entry decides, and read backwards it is the first.
    rw [update_concat, lookup_put, ih, List.reverse_append, List.reverse_singleton,
      List.singleton_append, lookup_cons]
    split <;> rfl

theorem lookup_foldl_update (places : List Context) (name : String) :
    (places.foldl update []).lookup name = innermost? places name := by
  induction places using List.reverseRecOn with
  | nil => rfl
  | append_singleton places place ih =>
    rw [List.foldl_append, List.foldl_cons, List.foldl_nil, lookup_update, ih, innermost?,
      innermost?, List.reverse_append, List.reverse_singleton, List.singleton_append,
      List.findSome?_cons]
    cases place.reverse.lookup name <;> rfl

theorem merges_foldl_update (places : List Context) : Merges places (places.foldl update []) where
  names := by
    -- For the names it does not matter where one place ends and the next begins.
    have whole : places.foldl update [] = update [] places.flatten := by
      rw [update, List.foldl_flatten]
      rfl
    rw [whole, update_names, namesOf]
  values := lookup_foldl_update places

end Context

/-- A context is empty if no place gives anything. -/
theorem Merges.eq_nil_iff {places : List Context} {context : Context}
    (merges : Merges places context) : context = [] ↔ ∀ place ∈ places, place = [] := by
  have nameless : namesOf places = [] ↔ places.flatten = [] := by
    rw [namesOf, List.eq_nil_iff_forall_not_mem]
    simp only [List.mem_eraseDups]
    rw [← List.eq_nil_iff_forall_not_mem, List.map_eq_nil_iff]
  calc
    context = [] ↔ context.map (·.1) = [] := List.map_eq_nil_iff.symm
    _ ↔ namesOf places = [] := by rw [merges.names]
    _ ↔ places.flatten = [] := nameless
    _ ↔ ∀ place ∈ places, place = [] := List.flatten_eq_nil_iff

/-- A message shows its context behind the text, if there is anything to show. -/
theorem Merges.message {places : List Context} {record : Record}
    (merges : Merges places record.context) :
    ((∀ place ∈ places, place = []) → record.message = record.text) ∧
    ((∃ place ∈ places, place ≠ []) → record.message = record.text ++ " | " ++
      " ".intercalate (record.context.map fun entry => entry.1 ++ "=" ++ entry.2.toText)) := by
  constructor
  · intro empty
    simp [Record.message, merges.eq_nil_iff.mpr empty]
  · rintro ⟨place, member, given⟩
    have filled : record.context ≠ [] := fun none => given (merges.eq_nil_iff.mp none place member)
    simp [Record.message, filled, Context.toText]

/-! ## Levels -/

/-- The first level that has been chosen decides. -/
theorem decides_iff (own : Int) (around : List Int) (level : Int) :
    Decides own around level ↔ effectiveThreshold (own :: around) = level := by
  unfold effectiveThreshold
  by_cases unset : own = 0
  · rw [List.find?_cons_of_neg (by simpa using unset)]
    constructor
    · intro decides
      cases decides with
      | own chosen => exact absurd unset chosen
      | @around before behind _ _ split noneBefore chosen =>
        have found : around.find? (· ≠ 0) = some level := by
          refine List.find?_eq_some_iff_append.mpr ⟨by simpa using chosen, before, behind, split, ?_⟩
          simpa using noneBefore
        rw [found, Option.getD_some]
      | nobody _ noneAround =>
        have found : around.find? (· ≠ 0) = none := by simpa using noneAround
        rw [found, Option.getD_none]
    · rintro rfl
      cases found : around.find? (· ≠ 0) with
      | none => exact .nobody unset (by simpa using found)
      | some level =>
        obtain ⟨chosen, before, behind, split, noneBefore⟩ := List.find?_eq_some_iff_append.mp found
        exact .around unset split (by simpa using noneBefore) (by simpa using chosen)
  · rw [List.find?_cons_of_pos (by simpa using unset), Option.getD_some]
    constructor
    · intro decides
      cases decides with
      | own _ => rfl
      | around none => exact absurd none unset
      | nobody none => exact absurd none unset
    · rintro rfl
      exact .own unset

/-! ## Steps -/

namespace Logger

variable (logger : Logger)

theorem merges_contextOf (own : Context) :
    Merges (logger.opened.reverse ++ [own]) (logger.contextOf own) := by
  rw [contextOf, List.reverse_cons]
  exact Context.merges_foldl_update _

theorem after_append (first second : List Step) :
    logger.after (first ++ second) = (logger.after first).after second :=
  List.foldl_append

theorem after_cons (step : Step) (rest : List Step) :
    logger.after (step :: rest) = (step.take logger).after rest := rfl

/-- A level is set if it can be, and otherwise nothing happens. -/
theorem take_setLevel (level : Value) :
    (∃ chosen, Log.threshold level = .ok chosen ∧
      (Step.setLevel level).take logger = { logger with threshold := chosen }) ∨
    (∀ chosen, Log.threshold level ≠ .ok chosen) ∧ (Step.setLevel level).take logger = logger := by
  cases set : Log.threshold level with
  | ok chosen =>
    refine .inl ⟨chosen, rfl, ?_⟩
    simp only [Step.take, setThreshold, set]
    rfl
  | error problem =>
    refine .inr ⟨fun _ => by simp, ?_⟩
    simp only [Step.take, setThreshold, set]
    rfl

theorem opened_take_setLevel (level : Value) :
    ((Step.setLevel level).take logger).opened = logger.opened := by
  obtain ⟨_, _, taken⟩ | ⟨_, taken⟩ := logger.take_setLevel level <;> rw [taken]

/-- Blocks that have been left are no longer open. -/
theorem opened_after_closed (history : List Step) (closed : Closed history) :
    (logger.after history).opened = logger.opened := by
  induction closed generalizing logger with
  | done => rfl
  | setLevel level _ ih => rw [after_cons, ih, opened_take_setLevel]
  | say message _ ih => exact ih logger
  | block context _ _ ih ihRest =>
    -- All that was entered meanwhile has been left, so leaving drops the block itself.
    have inside := ih ((Step.enter context).take logger)
    rw [List.cons_append, after_cons, after_append, after_cons, ihRest]
    exact congrArg List.tail inside

theorem opened_after_opens (history : List Step) (opened : List Context)
    (opens : Opens history opened) :
    (logger.after history).opened = opened.reverse ++ logger.opened := by
  induction opens generalizing logger with
  | none closed => exact logger.opened_after_closed _ closed
  | block closed context _ ih =>
    rw [after_append, after_cons, ih, Step.take, push, logger.opened_after_closed _ closed,
      List.reverse_cons, List.append_assoc]
    rfl

end Logger

/-- A step that sets no level leaves the one that is in force. -/
theorem InForce.concat {start : Value} {history : List Step} {chosen : Int}
    (inForce : InForce start history chosen) (step : Step) (unset : Unset [step]) :
    InForce start (history ++ [step]) chosen := by
  have further (steps : List Step) (unsetBefore : Unset steps) : Unset (steps ++ [step]) := by
    intro level member
    rcases List.mem_append.mp member with member | member
    · exact unsetBefore level member
    · exact unset level member
  cases inForce with
  | start set unsetBefore => exact .start set (further _ unsetBefore)
  | @changed before after level split set unsetBefore =>
    have whole : history ++ [step] = before ++ .setLevel level :: (after ++ [step]) := by
      rw [split, List.append_assoc, List.cons_append]
    exact .changed whole set (further _ unsetBefore)

namespace Logger

theorem inForce_after (logger : Logger) (start : Value) (history : List Step)
    (created : Log.threshold start = .ok logger.threshold) :
    InForce start history (logger.after history).threshold := by
  induction history using List.reverseRecOn with
  | nil => exact .start created (fun _ member => absurd member List.not_mem_nil)
  | append_singleton history step ih =>
    rw [after_append, after_cons]
    cases step with
    -- Only the attempt to set a level can put another one in force.
    | enter context => exact ih.concat _ (fun level member => by simp at member)
    | leave => exact ih.concat _ (fun level member => by simp at member)
    | say message => exact ih.concat _ (fun level member => by simp at member)
    | setLevel level =>
      obtain ⟨chosen, set, taken⟩ | ⟨unset, taken⟩ := (logger.after history).take_setLevel level
      · rw [taken]
        exact .changed rfl set (fun _ member => absurd member List.not_mem_nil)
      · rw [taken]
        refine ih.concat _ fun other member => ?_
        obtain rfl : other = level := by simpa using member
        exact unset

/-- What cannot be set does not change the level. -/
theorem threshold_after_unset (logger : Logger) (history : List Step) (unset : Unset history) :
    (logger.after history).threshold = logger.threshold := by
  induction history generalizing logger with
  | nil => rfl
  | cons step history ih =>
    have rest := ih (step.take logger) fun level member =>
      unset level (List.mem_cons_of_mem _ member)
    rw [after_cons, rest]
    cases step with
    | enter context => rfl
    | leave => rfl
    | say message => rfl
    | setLevel level =>
      obtain ⟨chosen, set, _⟩ | ⟨_, taken⟩ := logger.take_setLevel level
      · exact absurd set (unset level List.mem_cons_self chosen)
      · rw [taken]

/-- One level is in force, and the logger goes by it. -/
theorem inForce_iff (logger : Logger) (start : Value) (history : List Step) (chosen : Int)
    (created : Log.threshold start = .ok logger.threshold) :
    InForce start history chosen ↔ (logger.after history).threshold = chosen := by
  constructor
  · intro inForce
    cases inForce with
    | start set unset =>
      rw [logger.threshold_after_unset history unset]
      exact Except.ok.inj (created.symm.trans set)
    | @changed before after level split set unset =>
      rw [split, after_append, after_cons, threshold_after_unset _ after unset]
      obtain ⟨_, setToo, taken⟩ | ⟨failed, _⟩ := (logger.after before).take_setLevel level
      · rw [taken]
        exact Except.ok.inj (setToo.symm.trans set)
      · exact absurd set (failed chosen)
  · rintro rfl
    exact logger.inForce_after start history created

theorem create_eq_ok_iff (name : String) (level : Value) (logger : Logger) :
    create name level = .ok logger ↔
      ∃ chosen, Log.threshold level = .ok chosen ∧ ⟨name, chosen, []⟩ = logger := by
  rw [create, bind_eq_ok_iff]
  constructor
  · rintro ⟨chosen, set, made⟩
    exact ⟨chosen, set, Except.ok.inj made⟩
  · rintro ⟨chosen, set, rfl⟩
    exact ⟨chosen, set, rfl⟩

theorem unknownName (logger : Logger) (name : String)
    (unknown : ∀ level : Level, level.name ≠ String.ofList (name.toList.map Level.capital)) :
    logger.setThreshold (.text name) = .error (.unknownName name) := by
  have none : Level.ofName? name = none := by
    rw [Level.ofName?, List.find?_eq_none]
    exact fun level _ => by simpa using unknown level
  simp only [setThreshold, Log.threshold, none]
  rfl

/-- Whatever has happened at a logger since it was created, a message is recorded if its level
reaches the one in force; if that is 0, the levels around decide, and where only the root has one it
is that of warnings. The record carries what is open and what the message gives, and shows it behind
the text. What is open are blocks from before, whoever entered them, and those of the history. The
name of no level is refused and leaves everything as it is. Once a block is left, messages carry
what they carried before. -/
theorem recordIn?_after (start : Value) (logger : Logger) (history : List Step)
    (opened : List Context) (around : List Int) (message : Record)
    (created : Logger.create logger.name start = .ok { logger with opened := [] })
    (opens : Opens history opened) :
    (∃ chosen level, InForce start history chosen ∧ Decides chosen around level) ∧
    (∀ chosen level, InForce start history chosen → Decides chosen around level →
      (((logger.after history).recordIn? around message).isSome ↔ level ≤ message.level.rank)) ∧
    (∀ chosen between, InForce start history chosen → (∀ level ∈ between, level = 0) →
      around = between ++ [Level.warning.rank] →
      (((logger.after history).recordIn? around message).isSome ↔
        (if chosen = 0 then Level.warning.rank else chosen) ≤ message.level.rank)) ∧
    (∀ record, (logger.after history).recordIn? around message = some record →
      record.level = message.level ∧ record.text = message.text ∧
      Merges (logger.opened.reverse ++ opened ++ [message.context]) record.context ∧
      ((∀ place ∈ logger.opened.reverse ++ opened ++ [message.context], place = []) →
        record.message = message.text) ∧
      ((∃ place ∈ logger.opened.reverse ++ opened ++ [message.context], place ≠ []) →
        record.message = message.text ++ " | " ++
          " ".intercalate (record.context.map fun entry => entry.1 ++ "=" ++ entry.2.toText))) ∧
    (∀ unknown : String,
      (∀ level : Level, level.name ≠ String.ofList (unknown.toList.map Level.capital)) →
      (logger.after history).setThreshold (.text unknown) = .error (.unknownName unknown) ∧
      logger.after (history ++ [.setLevel (.text unknown)]) = logger.after history) ∧
    ∀ context inner, Closed inner → ∀ own,
      (logger.after (history ++ .enter context :: inner ++ [.leave])).contextOf own =
        (logger.after history).contextOf own := by
  obtain ⟨chosen, set, made⟩ := (create_eq_ok_iff ..).mp created
  have first : Log.threshold start = .ok logger.threshold := by
    rw [set]
    exact congrArg Except.ok (congrArg threshold made)
  have places : (logger.after history).opened.reverse = logger.opened.reverse ++ opened := by
    simp [logger.opened_after_opens history opened opens]
  have shown (chosen level : Int) (inForce : InForce start history chosen)
      (decides : Decides chosen around level) :
      ((logger.after history).recordIn? around message).isSome ↔ level ≤ message.level.rank := by
    obtain rfl := (logger.inForce_iff start history chosen first).mp inForce
    rw [recordIn?, Option.isSome_ite, showsIn, decide_eq_true_iff,
      (decides_iff _ around level).mp decides]
  refine ⟨?_, shown, ?_, ?_, ?_, ?_⟩
  · exact ⟨_, _, logger.inForce_after start history first, (decides_iff _ around _).mpr rfl⟩
  · intro chosen between inForce none only
    refine shown chosen _ inForce ?_
    split
    next unset => exact .around unset only none (by decide)
    next set => exact .own set
  · intro record recorded
    obtain ⟨_, rfl⟩ : _ ∧ _ = record := by simpa [recordIn?] using recorded
    -- The logger keeps its blocks innermost first.
    have merges := (logger.after history).merges_contextOf message.context
    rw [places] at merges
    exact ⟨rfl, rfl, merges, merges.message⟩
  · intro unknown notLevel
    have refused := unknownName (logger.after history) unknown notLevel
    refine ⟨refused, ?_⟩
    rw [after_append, after_cons, Step.take, refused]
    rfl
  · intro context inner closed own
    have block : Closed (.enter context :: inner ++ [.leave]) := .block context closed .done
    rw [List.append_assoc, after_append, contextOf, contextOf, opened_after_closed _ _ block]

/-- A name that three places give, a block that has been left and a level that is refused. The first
of the blocks has been entered before, and the level around is that of the root. -/
theorem recordIn?_after_nested :
    let logger : Logger := ⟨"l", Level.info.rank, [[("a", .int 1), ("b", .int 2)]]⟩
    let history : List Step := [.setLevel (.text "loud"), .enter [("c", .int 3)],
      .setLevel (.int 0), .leave, .enter [("b", .int 4)]]
    let message : Record := ⟨.warning, "m", [("c", .int 5), ("a", .int 6)]⟩
    ∃ record, create "l" (.text "info") = .ok { logger with opened := [] } ∧
      (logger.after history).record? message = some record ∧
      Merges [[("a", .int 1), ("b", .int 2)], [("b", .int 4)], message.context] record.context ∧
      record.message = "m | a=6 b=4 c=5" := by
  intro logger history message
  have created : create "l" (.text "info") = .ok { logger with opened := [] } := rfl
  have before : Closed [.setLevel (.text "loud"), .enter [("c", .int 3)], .setLevel (.int 0),
      .leave] := .setLevel _ (.block _ (.setLevel _ .done) .done)
  have opens : Opens history [[("b", .int 4)]] := .block before _ (.none .done)
  have recorded : (logger.after history).record? message =
      some ⟨.warning, "m", [("a", .int 6), ("b", .int 4), ("c", .int 5)]⟩ := rfl
  obtain ⟨_, _, _, carries, _, _⟩ :=
    recordIn?_after (.text "info") logger history _ [Level.warning.rank] message created opens
  obtain ⟨_, _, merges, _, shown⟩ := carries _ recorded
  have given : message.context ≠ [] := by simp [message]
  exact ⟨_, created, recorded, merges, (shown ⟨message.context, by simp, given⟩).trans rfl⟩

end Logger
end IgnoreRules.Log
