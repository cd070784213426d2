import IgnoreRules.Settings.Load

/-!
# What a look-up finds

A key is a path of names, and a document is a tree of values or a graph of parts. The value that a
key has in a document is reached by going from map to map along the names; where a map lacks a name,
or something else stands in the way, the document says nothing. Of all sources the strongest that
says something other than null decides.
-/

namespace IgnoreRules

/-- The entries of a map hold something under a name. -/
def Binds {α : Type} (entries : List (Value × α)) (name : String) (held : α) : Prop :=
  ∃ before behind, entries = before ++ (.text name, held) :: behind ∧
    ∀ entry ∈ before, entry.1 ≠ .text name

/-- A path of names leads from a value to a value, through nested maps. -/
inductive Value.Leads : Value → List String → Value → Prop
  | here (value : Value) : Leads value [] value
  | inside {entries : List (Value × Value)} {name : String} {names : List String}
      {inner value : Value} (binds : Binds entries name inner) (led : Leads inner names value) :
      Leads (.map entries) (name :: names) value

/-- A path of names leads from a part of a graph to a part. -/
inductive ValueGraph.Leads (graph : ValueGraph) : Place → List String → Place → Prop
  | here (place : Place) : Leads graph place [] place
  | inside {place inner reached : Place} {entries : List (Value × Place)} {name : String}
      {names : List String} (isMap : graph.part place = .map entries)
      (binds : Binds entries name inner) (led : Leads graph inner names reached) :
      Leads graph place (name :: names) reached

/-- No other key is the same as a text. -/
theorem Value.sameKey_text_iff (key : Value) (name : String) :
    key.sameKey (.text name) = true ↔ key = .text name := by
  cases key with
  | real number => cases whole : number.toInt? <;> simp [sameKey, wholeNumber?, whole]
  | text written => simp [sameKey, wholeNumber?]
  | _ => simp [sameKey, wholeNumber?]

theorem find_text_iff {α : Type} (entries : List (Value × α)) (name : String) (held : α) :
    (entries.find? fun entry => entry.1.sameKey (.text name)).map (·.2) = some held ↔
      Binds entries name held := by
  rw [Option.map_eq_some_iff]
  constructor
  · rintro ⟨⟨key, _⟩, found, rfl⟩
    obtain ⟨same, before, behind, split, others⟩ := List.find?_eq_some_iff_append.mp found
    obtain rfl : key = .text name := (Value.sameKey_text_iff key name).mp same
    refine ⟨before, behind, split, ?_⟩
    intro entry member equal
    have differs := others entry member
    rw [(Value.sameKey_text_iff entry.1 name).mpr equal] at differs
    cases differs
  · rintro ⟨before, behind, split, others⟩
    refine ⟨(.text name, held), List.find?_eq_some_iff_append.mpr ?_, rfl⟩
    refine ⟨(Value.sameKey_text_iff _ name).mpr rfl, before, behind, split, ?_⟩
    intro entry member
    have differs := others entry member
    rwa [ne_eq, ← Value.sameKey_text_iff, Bool.not_eq_true, ← Bool.not_eq_true'] at differs

theorem Value.at?_eq_some_iff (value : Value) (names : List String) (found : Value) :
    value.at? names = some found ↔ value.Leads names found := by
  -- Each name leads on to an inner value, from which the rest of the path starts.
  induction names generalizing value with
  | nil =>
    constructor
    · intro reached
      cases reached
      exact .here _
    · intro led
      cases led
      rfl
  | cons name names ih =>
    constructor
    · intro reached
      cases value with
      | map entries =>
        simp only [at?, field?] at reached
        cases given : lookup? entries name with
        | none => simp [given] at reached
        | some inner =>
          rw [given] at reached
          exact .inside ((find_text_iff entries name inner).mp given) ((ih inner).mp reached)
      | _ => cases reached
    · rintro (_ | ⟨binds, led⟩)
      next entries inner =>
      have given : lookup? entries name = some inner := (find_text_iff entries name inner).mpr binds
      simp only [at?, field?, given]
      exact (ih inner).mpr led

theorem ValueGraph.follow?_eq_some_iff (graph : ValueGraph) (place : Place) (names : List String)
    (reached : Place) :
    graph.follow? place names = some reached ↔ graph.Leads place names reached := by
  induction names generalizing place with
  | nil =>
    constructor
    · intro followed
      cases followed
      exact .here _
    · intro led
      cases led
      rfl
  | cons name names ih =>
    constructor
    · intro followed
      simp only [follow?, field?] at followed
      cases part : graph.part place with
      | map entries =>
        simp only [part] at followed
        cases given : (entries.find? fun entry => entry.1.sameKey (.text name)).map (·.2) with
        | none => simp [given] at followed
        | some inner =>
          rw [given] at followed
          exact .inside part ((find_text_iff entries name inner).mp given) ((ih inner).mp followed)
      | _ => simp [part] at followed
    · rintro (_ | ⟨isMap, binds, led⟩)
      next inner entries =>
      simp only [follow?, field?, isMap, (find_text_iff entries name inner).mpr binds]
      exact (ih inner).mpr led

namespace Settings

/-- What a source holds: a tree of values, or a graph as it is read from a file. -/
inductive Content
  | tree (value : Value)
  | graph (parts : ValueGraph)

namespace Content

/-- The look-up in a content. -/
def document : Content → Document
  | .tree value => value.at?
  | .graph parts => parts.at?

/-- A path of names leads to a value in a content. -/
def Shows (content : Content) (names : List String) (value : Value) : Prop :=
  match content with
  | .tree whole => whole.Leads names value
  | .graph parts => ∃ place, parts.Leads parts.root names place ∧ parts.unfold place = value

theorem document_eq_some_iff (content : Content) (names : List String) (value : Value) :
    content.document names = some value ↔ content.Shows names value := by
  cases content with
  | tree whole => exact whole.at?_eq_some_iff names value
  | graph parts =>
    simp only [document, Shows, ValueGraph.at?, Option.map_eq_some_iff,
      ValueGraph.follow?_eq_some_iff]

end Content

/-- Settings that hold a content for some of the sources. -/
def holding (held : Source → Option Content) : Settings :=
  ⟨fun source => (held source).map Content.document⟩

/-- The rank of a source among the others. -/
def strength : Source → Nat
  | .defaults => 1
  | .userFile => 2
  | .environment => 3
  | .commandLine => 4
  | .override => 5

/-- A source has a value other than null at a path of names. -/
def Tells (held : Source → Option Content) (names : List String) (source : Source)
    (value : Value) : Prop :=
  ∃ content, held source = some content ∧ content.Shows names value ∧ value ≠ .null

/-- What a look-up is to return: the value in the strongest source that has one, or else the
substitute. -/
inductive Decides (held : Source → Option Content) (names : List String) (substitute : Value) :
    Value → Prop
  | said {source : Source} {value : Value} (given : Tells held names source value)
      (strongest : ∀ other, strength source < strength other →
        ∀ value, ¬Tells held names other value) : Decides held names substitute value
  | unsaid (silent : ∀ source value, ¬Tells held names source value) :
      Decides held names substitute substitute

theorem isNull_iff (value : Value) : value.isNull = true ↔ value = .null := by
  cases value <;> simp [Value.isNull]

theorem valueIn?_eq_some_iff (held : Source → Option Content) (key : String) (source : Source)
    (value : Value) :
    (holding held).valueIn? key source = some value ↔ Tells held (path key) source value := by
  rw [valueIn?, Option.filter_eq_some_iff, Bool.not_eq_true', ← Bool.not_eq_true, isNull_iff]
  cases content : held source with
  | none => simp [holding, Tells, content]
  | some content =>
    simp [holding, Tells, content, Content.document_eq_some_iff]

theorem valueIn?_eq_none_iff (held : Source → Option Content) (key : String) (source : Source) :
    (holding held).valueIn? key source = none ↔ ∀ value, ¬Tells held (path key) source value := by
  simp only [← valueIn?_eq_some_iff, Option.eq_none_iff_forall_ne_some]

/-- The sources are searched in the order of their strength. -/
theorem strongestFirst_sorted :
    Source.strongestFirst.Pairwise fun left right => strength right < strength left := by
  decide

theorem mem_strongestFirst (source : Source) : source ∈ Source.strongestFirst := by
  cases source <;> decide

theorem get_decides (held : Source → Option Content) (key : String) (substitute : Value) :
    Decides held (path key) substitute ((holding held).get key substitute) := by
  rw [get, get?]
  cases found : Source.strongestFirst.findSome? ((holding held).valueIn? key) with
  | none =>
    refine .unsaid fun source => ?_
    rw [← valueIn?_eq_none_iff]
    exact List.findSome?_eq_none_iff.mp found source (mem_strongestFirst source)
  | some value =>
    -- Whatever stands before the source that is found is silent, and nothing behind it is stronger.
    obtain ⟨stronger, source, weaker, split, gives, silent⟩ := List.findSome?_eq_some_iff.mp found
    refine .said ((valueIn?_eq_some_iff held key source value).mp gives) ?_
    intro other above
    rw [← valueIn?_eq_none_iff]
    have sorted := strongestFirst_sorted
    have member := mem_strongestFirst other
    rw [split] at sorted member
    have below := (List.pairwise_cons.mp (List.pairwise_append.mp sorted).2.1).1
    rcases List.mem_append.mp member with before | after
    · exact silent other before
    · rcases List.mem_cons.mp after with rfl | behind
      · omega
      · have weaker := below other behind
        omega

end Settings
end IgnoreRules
