/-!
# Paths of entries

The path of an entry starts with a separator and has one before each of its components. The path of
a directory may have one more at its end. A separator inside the path is always the start of a
component or that last one, so the path can be cut at a separator and nowhere else.
-/

namespace IgnoreRules.Pattern

/-- Components with a separator before each. -/
def trail (components : List (List Char)) : List Char := components.flatMap ('/' :: ·)

/-- Text that can name an entry of a directory. -/
structure IsName (component : List Char) : Prop where
  nonempty : component ≠ []
  whole : '/' ∉ component
  inLine : '\n' ∉ component

/-- The path of an entry, seen from the directory of the rule file. -/
structure EntryPath where
  components : List (List Char)
  /-- The path ends with a separator, as that of a directory does. -/
  trailing : Bool
  nonempty : components ≠ []
  names : ∀ component ∈ components, IsName component

/-- The separator at the end of a path. -/
def ending (trailing : Bool) : List Char := if trailing then ['/'] else []

/-- The text of a path. -/
def EntryPath.text (path : EntryPath) : List Char := trail path.components ++ ending path.trailing

/-- What separates the components of a path up to some place from those after it or from
nothing. -/
def EntryPath.stop (path : EntryPath) (after : List (List Char)) : List Char :=
  ending (!after.isEmpty || path.trailing)

@[simp] theorem trail_nil : trail [] = [] := rfl

@[simp] theorem trail_cons (component : List Char) (components : List (List Char)) :
    trail (component :: components) = '/' :: (component ++ trail components) := rfl

@[simp] theorem trail_append (components more : List (List Char)) :
    trail (components ++ more) = trail components ++ trail more := List.flatMap_append

theorem trail_eq_nil (components : List (List Char)) : trail components = [] ↔ components = [] := by
  cases components <;> simp

/-- Components with a separator before each are the joined text with one in front. -/
theorem trail_intercalate (components : List (List Char)) (nonempty : components ≠ []) :
    trail components = '/' :: ['/'].intercalate components := by
  induction components with
  | nil => exact absurd rfl nonempty
  | cons component components ih =>
    cases components with
    | nil => simp
    | cons next components =>
      rw [trail_cons, ih (by simp)]
      simp

/-- Cut at its separators, a text is components again. -/
theorem trail_splitOn (text : List Char) : trail (text.splitOn '/') = '/' :: text := by
  rw [trail_intercalate _ (List.splitOn_ne_nil _ _), List.intercalate_splitOn]

/-- In front of the first separator of a path stands an empty component. -/
theorem splitOn_separator (text : List Char) : ('/' :: text).splitOn '/' = [] :: text.splitOn '/' :=
  List.splitOn_append_cons_self [] text

/-- There is one separator for every component, and those within the components. -/
theorem count_trail (components : List (List Char)) :
    (trail components).count '/' = components.length + components.flatten.count '/' := by
  induction components with
  | nil => rfl
  | cons component components ih =>
    rw [trail_cons, List.count_cons_self, List.count_append, ih, List.flatten_cons,
      List.count_append, List.length_cons]
    omega

/-- No line feed in a path. -/
theorem inLine_trail (components : List (List Char))
    (names : ∀ component ∈ components, IsName component) : '\n' ∉ trail components := by
  induction components with
  | nil => simp
  | cons component components ih =>
    have first := (names component (by simp)).inLine
    have rest := ih fun other member => names other (by simp [member])
    simp [first, rest]

/-- The last character of a trail belongs to its last component. -/
theorem trail_last (components : List (List Char)) (nonempty : components ≠ [])
    (names : ∀ component ∈ components, IsName component) :
    ∃ front last, trail components = front ++ [last] ∧ last ≠ '/' := by
  induction components with
  | nil => exact absurd rfl nonempty
  | cons component components ih =>
    cases components with
    | nil =>
      have name := names component (by simp)
      refine ⟨'/' :: component.dropLast, component.getLast name.nonempty, ?_, ?_⟩
      · simp [List.dropLast_concat_getLast]
      · exact fun same => name.whole (same ▸ List.getLast_mem name.nonempty)
    | cons next components =>
      obtain ⟨front, last, ended, other⟩ :=
        ih (by simp) fun component member => names component (List.mem_cons_of_mem _ member)
      exact ⟨'/' :: (component ++ front), last, by rw [trail_cons, ended]; simp, other⟩

/-- Where a text begins at which a component can end. -/
def AtBoundary (text : List Char) : Prop := ∀ c ∈ text.head?, c = '/'

theorem atBoundary_trail (components : List (List Char)) (trailing : Bool) :
    AtBoundary (trail components ++ ending trailing) := by
  cases components with
  | nil => cases trailing <;> simp [AtBoundary, ending]
  | cons => simp [AtBoundary]

/-- A component is the text up to the next separator. -/
theorem component_unique (left right rest more : List Char) (whole : '/' ∉ left)
    (wholeToo : '/' ∉ right) (ends : AtBoundary rest) (endsToo : AtBoundary more)
    (same : left ++ rest = right ++ more) : left = right ∧ rest = more := by
  -- What one text has more than the other would start with a separator, and neither holds one.
  have within (first second behind : List Char) (clean : '/' ∉ first) (boundary : AtBoundary behind)
      (longer : first = second ++ behind) : behind = [] := by
    cases behind with
    | nil => rfl
    | cons c behind =>
      obtain rfl : c = '/' := boundary c (by simp)
      exact absurd (by simp [longer]) clean
  rcases List.append_eq_append_iff.mp same with ⟨extra, longer, split⟩ | ⟨extra, longer, split⟩
  · have boundary : AtBoundary extra := by
      cases extra with
      | nil => simp [AtBoundary]
      | cons c extra => simpa [split, AtBoundary] using ends
    obtain rfl := within right left extra wholeToo boundary longer
    exact ⟨by simpa using longer.symm, by simpa using split⟩
  · have boundary : AtBoundary extra := by
      cases extra with
      | nil => simp [AtBoundary]
      | cons c extra => simpa [split, AtBoundary] using endsToo
    obtain rfl := within left right extra whole boundary longer
    exact ⟨by simpa using longer, by simpa using split.symm⟩

theorem trail_eq_single (components : List (List Char)) (component : List Char)
    (whole : '/' ∉ component) (names : ∀ component ∈ components, IsName component) :
    trail components = '/' :: component ↔ components = [component] := by
  constructor
  · intro same
    cases components with
    | nil => cases same
    | cons first rest =>
      have boundary : AtBoundary (trail rest) := by
        simpa [ending] using atBoundary_trail rest false
      obtain ⟨rfl, none⟩ := component_unique first component (trail rest) []
        (names first (by simp)).whole whole boundary (by simp [AtBoundary])
        (by simpa using same)
      rw [(trail_eq_nil rest).mp none]
  · rintro rfl
    simp

theorem whole_of_mem_splitOn (text component : List Char) (member : component ∈ text.splitOn '/') :
    '/' ∉ component := by
  induction text generalizing component with
  | nil => simp_all
  | cons c text ih =>
    rw [List.splitOn_cons_eq_if_modifyHead] at member
    split at member
    next =>
      rcases List.mem_cons.mp member with rfl | member
      · simp
      · exact ih component member
    next other =>
      obtain ⟨first, rest, split⟩ := List.exists_cons_of_ne_nil (List.splitOn_ne_nil '/' text)
      rw [split] at ih member
      rcases List.mem_cons.mp member with rfl | member
      · have clean := ih first (by simp)
        simp only [beq_iff_eq] at other
        simp [clean, Ne.symm other]
      · exact ih component (by simp [member])

/-- A text that starts with a component is cut behind it first. -/
theorem splitOn_component (component rest : List Char) (clean : '/' ∉ component)
    (boundary : AtBoundary rest) : ∃ more, (component ++ rest).splitOn '/' = component :: more := by
  cases rest with
  | nil => exact ⟨[], by simp [List.splitOn_eq_singleton clean]⟩
  | cons c rest =>
    obtain rfl : c = '/' := boundary c (by simp)
    exact ⟨_, List.splitOn_append_cons_self_of_not_mem clean rest⟩

/-- Behind the separator in front of a text its components are those of the text. -/
theorem splitOn_behind (text before rest : List Char)
    (split : '/' :: text = before ++ '/' :: rest) :
    ∃ front, text.splitOn '/' = front ++ rest.splitOn '/' := by
  cases before with
  | nil =>
    obtain ⟨_, rfl⟩ := List.cons.inj split
    exact ⟨[], rfl⟩
  | cons c before =>
    have same : text = before ++ '/' :: rest := (List.cons.inj split).2
    exact ⟨_, by rw [same, List.splitOn_append_cons_self]⟩

theorem atBoundary_components (components : List (List Char)) : AtBoundary (trail components) := by
  have boundary := atBoundary_trail components false
  rwa [ending, if_neg (by simp), List.append_nil] at boundary

/-- A component stands behind a separator and reaches up to the next one. -/
theorem mem_splitOn_iff (text component : List Char) :
    component ∈ text.splitOn '/' ↔ '/' ∉ component ∧
      ∃ before rest, '/' :: text = before ++ '/' :: (component ++ rest) ∧ AtBoundary rest := by
  constructor
  · intro member
    obtain ⟨front, behind, split⟩ := List.append_of_mem member
    refine ⟨whole_of_mem_splitOn text component member, trail front, trail behind, ?_,
      atBoundary_components behind⟩
    rw [← trail_splitOn, split, trail_append, trail_cons]
  · rintro ⟨clean, before, rest, split, boundary⟩
    obtain ⟨more, first⟩ := splitOn_component component rest clean boundary
    obtain ⟨front, cut⟩ := splitOn_behind text before _ split
    rw [cut, first]
    simp

/-- Two components next to each other have one separator between them. -/
theorem infix_splitOn_iff (text left right : List Char) :
    [left, right] <:+: text.splitOn '/' ↔ '/' ∉ left ∧ '/' ∉ right ∧
      ∃ before rest, '/' :: text = before ++ '/' :: (left ++ '/' :: (right ++ rest)) ∧
        AtBoundary rest := by
  constructor
  · rintro ⟨front, behind, split⟩
    have whole (component : List Char) (member : component ∈ [left, right]) : '/' ∉ component :=
      whole_of_mem_splitOn text component
        (split ▸ List.mem_append_left _ (List.mem_append_right _ member))
    refine ⟨whole left (by simp), whole right (by simp), trail front, trail behind, ?_,
      atBoundary_components behind⟩
    rw [← trail_splitOn, ← split]
    simp
  · rintro ⟨clean, cleanToo, before, rest, split, boundary⟩
    obtain ⟨more, second⟩ := splitOn_component right rest cleanToo boundary
    obtain ⟨front, cut⟩ := splitOn_behind text before _ split
    refine ⟨front, more, ?_⟩
    rw [cut, List.splitOn_append_cons_self_of_not_mem clean, second]
    simp

theorem mem_of_mem_splitOn (text component : List Char) (c : Char)
    (member : component ∈ text.splitOn '/') (inside : c ∈ component) : c ∈ text := by
  obtain ⟨whole, before, rest, split, -⟩ := (mem_splitOn_iff text component).mp member
  have present : c ∈ '/' :: text := by simp [split, inside]
  rcases List.mem_cons.mp present with rfl | present
  · exact absurd inside whole
  · exact present

/-- The last component reaches up to the end. -/
theorem getLast?_splitOn_iff (text component : List Char) :
    (text.splitOn '/').getLast? = some component ↔ '/' ∉ component ∧
      ∃ before, '/' :: text = before ++ '/' :: component := by
  constructor
  · intro last
    obtain ⟨front, split⟩ := List.getLast?_eq_some_iff.mp last
    refine ⟨whole_of_mem_splitOn text component (by simp [split]), trail front, ?_⟩
    rw [← trail_splitOn, split, trail_append, trail_cons, trail_nil, List.append_nil]
  · rintro ⟨clean, before, split⟩
    cases before with
    | nil =>
      obtain ⟨_, rfl⟩ := List.cons.inj split
      simp [List.splitOn_eq_singleton clean]
    | cons c before =>
      have same : text = before ++ '/' :: component := (List.cons.inj split).2
      rw [same, List.splitOn_append_cons_self, List.splitOn_eq_singleton clean]
      exact List.getLast?_concat

/-- A path is cut at a separator between two components or before the last separator. -/
theorem trail_cut (components : List (List Char)) (trailing : Bool)
    (names : ∀ component ∈ components, IsName component) (front rest : List Char)
    (split : trail components ++ ending trailing = front ++ '/' :: rest) :
    ∃ before behind, components = before ++ behind ∧ front = trail before ∧
      '/' :: rest = trail behind ++ ending trailing := by
  induction components generalizing front with
  | nil =>
    cases front with
    | nil => exact ⟨[], [], rfl, rfl, split.symm⟩
    | cons c front => cases trailing <;> simp [ending] at split
  | cons component components ih =>
    cases front with
    | nil => exact ⟨[], component :: components, rfl, rfl, split.symm⟩
    | cons c front =>
      have first := names component (by simp)
      simp only [trail_cons, List.cons_append, List.cons.injEq, List.append_assoc] at split
      obtain ⟨rfl, split⟩ := split
      -- The separator lies behind the first component, which holds none, so what is in front of it
      -- is that component and more, or just the component.
      rcases List.append_eq_append_iff.mp split with ⟨extra, rfl, further⟩ | ⟨extra, longer, further⟩
      · obtain ⟨before, behind, rfl, rfl, rest⟩ :=
          ih (fun other member => names other (by simp [member])) extra further
        exact ⟨component :: before, behind, rfl, rfl, rest⟩
      · cases extra with
        | nil =>
          simp only [List.append_nil, List.nil_append] at longer further
          subst longer
          exact ⟨[component], components, rfl, by simp, further⟩
        | cons d extra =>
          obtain ⟨rfl, _⟩ := List.cons.inj further
          exact absurd (by simp [longer]) first.whole

end IgnoreRules.Pattern
