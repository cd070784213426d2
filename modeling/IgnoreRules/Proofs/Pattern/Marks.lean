import IgnoreRules.Pattern.Wildcards

/-!
# Pattern text as marks

Every replacement works on one text, into which the earlier ones have put fragments of regular
expressions. Here the same series runs over marks, where a fragment is one unit that nothing
looks into. Each replacement does to the spelled text what it does to the marks, so the order of
the series alone keeps the fragments whole.
-/

namespace IgnoreRules.Pattern

/-- A character of pattern text, or a fragment that a replacement has put in. -/
inductive Mark
  | char (c : Char)
  | escaped (c : Char) (special : isSpecial c = true)
  | nameChar
  | innerPath
  | leadingPath
  | trailingPath
  | wholeName
  | namePart
  | anyText

namespace Mark

/-- The text of a mark while its separators are not escaped. -/
def text : Mark → List Char
  | .char c => [c]
  | .escaped c _ => ['\\', c]
  | .nameChar => Pattern.nameChar
  | .innerPath => Pattern.innerPath
  | .leadingPath => Pattern.leadingPath
  | .trailingPath => Pattern.trailingPath
  | .wholeName => Pattern.wholeName
  | .namePart => Pattern.namePart
  | .anyText => Pattern.anyText

/-- The text of marks. -/
def spell (marks : List Mark) : List Char := marks.flatMap text

@[simp] theorem spell_nil : spell [] = [] := rfl

@[simp] theorem spell_cons (mark : Mark) (marks : List Mark) :
    spell (mark :: marks) = mark.text ++ spell marks := rfl

@[simp] theorem spell_append (marks more : List Mark) :
    spell (marks ++ more) = spell marks ++ spell more := by simp [spell]

@[simp] theorem spell_chars (text : List Char) : spell (text.map .char) = text := by
  induction text with
  | nil => rfl
  | cons c text ih => simp [Mark.text, ih]

/-- Fragments start with one of these, so no other character is ever the start of one. -/
def opens (c : Char) : Bool := c = '\\' || c = '[' || c = '(' || c = '.'

theorem spell_eq_cons (c : Char) (ordinary : opens c = false) (marks : List Mark)
    (rest : List Char) :
    spell marks = c :: rest ↔ ∃ more, marks = .char c :: more ∧ spell more = rest := by
  constructor
  · intro same
    cases marks with
    | nil => simp at same
    | cons mark more =>
      cases mark with
      | char d =>
        obtain ⟨rfl, rest⟩ := List.cons.inj same
        exact ⟨more, rfl, rest⟩
      | escaped =>
        obtain ⟨rfl, _⟩ := List.cons.inj same
        cases ordinary
      | nameChar | wholeName | namePart | innerPath | leadingPath | trailingPath | anyText =>
        obtain ⟨rfl, _⟩ := List.cons.inj same
        cases ordinary
  · rintro ⟨more, rfl, rfl⟩
    rfl

/-- Ordinary text in front is made of single characters. -/
theorem spell_eq_append (front : List Char) (ordinary : front.all (!opens ·) = true)
    (marks : List Mark) (rest : List Char) :
    spell marks = front ++ rest ↔
      ∃ more, marks = front.map .char ++ more ∧ spell more = rest := by
  induction front generalizing marks with
  | nil => simp
  | cons c front ih =>
    simp only [List.all_cons, Bool.and_eq_true, Bool.not_eq_true'] at ordinary
    rw [List.cons_append, spell_eq_cons c ordinary.1]
    constructor
    · rintro ⟨tail, rfl, spelled⟩
      obtain ⟨more, rfl, last⟩ := (ih ordinary.2 tail).mp spelled
      exact ⟨more, rfl, last⟩
    · rintro ⟨more, rfl, spelled⟩
      exact ⟨front.map .char ++ more, rfl, (ih ordinary.2 _).mpr ⟨more, rfl, spelled⟩⟩

theorem spell_eq_nil (marks : List Mark) : spell marks = [] ↔ marks = [] := by
  cases marks with
  | nil => simp
  | cons mark more => cases mark <;> simp [text, Pattern.nameChar, Pattern.innerPath,
      Pattern.leadingPath, Pattern.trailingPath, Pattern.wholeName, Pattern.namePart,
      Pattern.anyText]

/-! ## The series of replacements -/

/-- Put special characters behind a backslash. -/
def escapeSpecial (marks : List Mark) : List Mark :=
  marks.map fun
    | .char c => if special : isSpecial c = true then .escaped c special else .char c
    | mark => mark

def questionMarks (marks : List Mark) : List Mark :=
  marks.map fun
    | .char c => if c = '?' then .nameChar else .char c
    | mark => mark

def innerDoubleStars : List Mark → List Mark
  | .char '/' :: .char '*' :: .char '*' :: .char '/' :: rest => .innerPath :: innerDoubleStars rest
  | mark :: rest => mark :: innerDoubleStars rest
  | [] => []

def leadingDoubleStar : List Mark → List Mark
  | .char '*' :: .char '*' :: .char '/' :: rest => .leadingPath :: rest
  | marks => marks

def isFinal : List Mark → Bool
  | [] => true
  | [.char '\n'] => true
  | _ => false

def trailingDoubleStar : List Mark → List Mark
  | .char '/' :: .char '*' :: .char '*' :: rest =>
    if isFinal rest then .trailingPath :: rest
    else .char '/' :: trailingDoubleStar (.char '*' :: .char '*' :: rest)
  | mark :: rest => mark :: trailingDoubleStar rest
  | [] => []

def hasTrailingDoubleStar : List Mark → Bool
  | .char '/' :: .char '*' :: .char '*' :: rest =>
    isFinal rest || hasTrailingDoubleStar (.char '*' :: .char '*' :: rest)
  | _ :: rest => hasTrailingDoubleStar rest
  | [] => false

/-- What is held back for `**` are twelve characters like others: a pattern may hold them too. -/
def heldDoubleStar : List Mark := Pattern.heldDoubleStar.map .char

def holdDoubleStars : List Mark → List Mark
  | .char '*' :: .char '*' :: rest => heldDoubleStar ++ holdDoubleStars rest
  | mark :: rest => mark :: holdDoubleStars rest
  | [] => []

def starSegments : List Mark → List Mark
  | .char '/' :: .char '*' :: .char '/' :: rest =>
    .char '/' :: .wholeName :: .char '/' :: starSegments rest
  | .char '/' :: .char '*' :: rest =>
    if isFinal rest then .char '/' :: .wholeName :: rest
    else .char '/' :: starSegments (.char '*' :: rest)
  | mark :: rest => mark :: starSegments rest
  | [] => []

def stars (marks : List Mark) : List Mark :=
  marks.map fun
    | .char c => if c = '*' then .namePart else .char c
    | mark => mark

def releaseDoubleStars : List Mark → List Mark
  | .char '\x00' :: .char 'D' :: .char 'O' :: .char 'U' :: .char 'B' :: .char 'L' :: .char 'E' ::
      .char 'S' :: .char 'T' :: .char 'A' :: .char 'R' :: .char '\x00' :: rest =>
    .anyText :: releaseDoubleStars rest
  | mark :: rest => mark :: releaseDoubleStars rest
  | [] => []

/-- The steps before a final `/**` is looked for. -/
def openWildcards (text : List Char) : List Mark :=
  leadingDoubleStar (innerDoubleStars (questionMarks (escapeSpecial ((unescape text).map .char))))

/-- The steps after it. -/
def closeWildcards (marks : List Mark) : List Mark :=
  releaseDoubleStars (stars (starSegments (holdDoubleStars marks)))

/-- The marks that pattern text ends up as. -/
def ofText (text : List Char) : List Mark :=
  closeWildcards (trailingDoubleStar (openWildcards text))

/-! ## Replacing in the text is replacing marks -/

private theorem escaped_ne (c d : Char) (special : isSpecial c = true)
    (ordinary : isSpecial d = false) : c ≠ d := by
  rintro rfl
  simp [special] at ordinary

theorem escapeSpecial_spell (text : List Char) :
    Pattern.escapeSpecial text = spell (escapeSpecial (text.map .char)) := by
  induction text with
  | nil => rfl
  | cons c text ih =>
    simp only [Pattern.escapeSpecial, List.flatMap_cons, escapeSpecial, List.map_cons,
      spell_cons] at ih ⊢
    rw [ih]
    split <;> rfl

/-- Nothing but plain and escaped characters. -/
def Unbuilt : Mark → Prop
  | .char _ => True
  | .escaped _ _ => True
  | _ => False

theorem escapeSpecial_unbuilt (text : List Char) :
    ∀ mark ∈ escapeSpecial (text.map .char), mark.Unbuilt := by
  intro mark member
  simp only [escapeSpecial, List.map_map, List.mem_map, Function.comp_apply] at member
  obtain ⟨c, _, rfl⟩ := member
  split <;> trivial

theorem questionMarks_spell (marks : List Mark) (unbuilt : ∀ mark ∈ marks, mark.Unbuilt) :
    Pattern.questionMarks (spell marks) = spell (questionMarks marks) := by
  induction marks with
  | nil => rfl
  | cons mark marks ih =>
    have rest := ih (fun other member => unbuilt other (by simp [member]))
    have first := unbuilt mark (by simp)
    simp only [Pattern.questionMarks, questionMarks, spell_cons, List.flatMap_append,
      List.map_cons] at rest ⊢
    rw [rest]
    congr 1
    cases mark with
    | char c =>
      simp only [text, List.flatMap_cons, List.flatMap_nil, List.append_nil]
      split <;> rfl
    | escaped c special =>
      have other := escaped_ne c '?' special rfl
      simp [text, other]
    | _ => exact first.elim

private theorem inner_over (mark : Mark) (rest : List Char) (fragment : ∀ c, mark ≠ .char c) :
    Pattern.innerDoubleStars (mark.text ++ rest) =
      mark.text ++ Pattern.innerDoubleStars rest := by
  cases mark with
  | char c => exact absurd rfl (fragment c)
  | escaped c special =>
    have other := escaped_ne c '/' special rfl
    simp [text, Pattern.innerDoubleStars, other]
  | _ => simp [text, Pattern.innerDoubleStars, Pattern.nameChar, Pattern.innerPath,
      Pattern.leadingPath, Pattern.trailingPath, Pattern.wholeName, Pattern.namePart,
      Pattern.anyText]

theorem innerDoubleStars_spell (marks : List Mark) :
    Pattern.innerDoubleStars (spell marks) = spell (innerDoubleStars marks) := by
  fun_induction innerDoubleStars marks with
  | case1 rest ih => simp [text, Pattern.innerDoubleStars, ih]
  | case2 mark rest other ih =>
    cases mark with
    | char c =>
      simp only [spell_cons, text, List.cons_append, List.nil_append]
      -- What the replacement looks for would be spelled by plain characters, and there it is not.
      rw [Pattern.innerDoubleStars.eq_2, ih]
      rintro more rfl spelled
      obtain ⟨tail, rfl, _⟩ := (spell_eq_append ['*', '*', '/'] rfl rest more).mp spelled
      exact other tail rfl rfl
    | _ => rw [spell_cons, inner_over _ _ (by simp), ih, spell_cons]
  | case3 => rfl

theorem leadingDoubleStar_spell (marks : List Mark) :
    Pattern.leadingDoubleStar (spell marks) = spell (leadingDoubleStar marks) := by
  fun_cases leadingDoubleStar marks with
  | case1 rest => rfl
  | case2 marks other =>
    rw [Pattern.leadingDoubleStar.eq_2]
    intro more spelled
    obtain ⟨tail, rfl, _⟩ := (spell_eq_append ['*', '*', '/'] rfl marks more).mp spelled
    exact other tail rfl

theorem isFinal_spell (marks : List Mark) : Pattern.isFinal (spell marks) = isFinal marks := by
  fun_cases isFinal marks with
  | case1 => rfl
  | case2 => rfl
  | case3 marks some other =>
    rw [Pattern.isFinal.eq_3]
    · exact fun spelled => some ((spell_eq_nil marks).mp spelled)
    · intro spelled
      obtain ⟨tail, rfl, ended⟩ := (spell_eq_append ['\n'] rfl marks []).mp spelled
      exact other (by rw [(spell_eq_nil tail).mp ended]; rfl)

private theorem trailing_over (mark : Mark) (rest : List Char) (fragment : ∀ c, mark ≠ .char c) :
    Pattern.trailingDoubleStar (mark.text ++ rest) =
      mark.text ++ Pattern.trailingDoubleStar rest ∧
    Pattern.hasTrailingDoubleStar (mark.text ++ rest) = Pattern.hasTrailingDoubleStar rest := by
  cases mark with
  | char c => exact absurd rfl (fragment c)
  | escaped c special =>
    have other := escaped_ne c '/' special rfl
    simp [text, Pattern.trailingDoubleStar, Pattern.hasTrailingDoubleStar, other]
  | _ => simp [text, Pattern.trailingDoubleStar, Pattern.hasTrailingDoubleStar, Pattern.nameChar,
      Pattern.innerPath, Pattern.leadingPath, Pattern.trailingPath, Pattern.wholeName,
      Pattern.namePart, Pattern.anyText]

theorem trailingDoubleStar_spell (marks : List Mark) :
    Pattern.trailingDoubleStar (spell marks) = spell (trailingDoubleStar marks) := by
  fun_induction trailingDoubleStar marks with
  | case1 rest final => simp [text, Pattern.trailingDoubleStar, isFinal_spell, final]
  | case2 rest open_ ih =>
    simp only [spell_cons, text, List.cons_append, List.nil_append] at ih ⊢
    rw [Pattern.trailingDoubleStar.eq_1, isFinal_spell, if_neg open_, ih]
  | case3 mark rest other ih =>
    cases mark with
    | char c =>
      simp only [spell_cons, text, List.cons_append, List.nil_append]
      rw [Pattern.trailingDoubleStar.eq_2, ih]
      rintro more rfl spelled
      obtain ⟨tail, rfl, _⟩ := (spell_eq_append ['*', '*'] rfl rest more).mp spelled
      exact other tail rfl rfl
    | _ => rw [spell_cons, (trailing_over _ _ (by simp)).1, ih, spell_cons]
  | case4 => rfl

theorem hasTrailingDoubleStar_spell (marks : List Mark) :
    Pattern.hasTrailingDoubleStar (spell marks) = hasTrailingDoubleStar marks := by
  fun_induction hasTrailingDoubleStar marks with
  | case1 rest ih =>
    simp only [spell_cons, text, List.cons_append, List.nil_append] at ih ⊢
    rw [Pattern.hasTrailingDoubleStar.eq_1, isFinal_spell, ih]
  | case2 mark rest other ih =>
    cases mark with
    | char c =>
      simp only [spell_cons, text, List.cons_append, List.nil_append]
      rw [Pattern.hasTrailingDoubleStar.eq_2, ih]
      rintro more rfl spelled
      obtain ⟨tail, rfl, _⟩ := (spell_eq_append ['*', '*'] rfl rest more).mp spelled
      exact other tail rfl rfl
    | _ => rw [spell_cons, (trailing_over _ _ (by simp)).2, ih]
  | case3 => rfl

/-- No fragment with a star of its own. -/
def Starless : Mark → Prop
  | .namePart => False
  | .anyText => False
  | _ => True

private theorem hold_over (mark : Mark) (rest : List Char) (fragment : ∀ c, mark ≠ .char c)
    (starless : mark.Starless) :
    Pattern.holdDoubleStars (mark.text ++ rest) = mark.text ++ Pattern.holdDoubleStars rest := by
  cases mark with
  | char c => exact absurd rfl (fragment c)
  | escaped c special =>
    have other := escaped_ne c '*' special rfl
    simp [text, Pattern.holdDoubleStars, other]
  | namePart | anyText => exact starless.elim
  | _ => simp [text, Pattern.holdDoubleStars, Pattern.nameChar, Pattern.innerPath,
      Pattern.leadingPath, Pattern.trailingPath, Pattern.wholeName]

theorem holdDoubleStars_spell (marks : List Mark) (starless : ∀ mark ∈ marks, mark.Starless) :
    Pattern.holdDoubleStars (spell marks) = spell (holdDoubleStars marks) := by
  fun_induction holdDoubleStars marks with
  | case1 rest ih =>
    have further := ih (fun mark member => starless mark (by simp [member]))
    simp only [spell_cons, text, List.cons_append, List.nil_append, heldDoubleStar, spell_append,
      spell_chars]
    rw [Pattern.holdDoubleStars.eq_1, further]
  | case2 mark rest other ih =>
    have further := ih (fun mark member => starless mark (by simp [member]))
    have first := starless mark (by simp)
    cases mark with
    | char c =>
      simp only [spell_cons, text, List.cons_append, List.nil_append]
      rw [Pattern.holdDoubleStars.eq_2, further]
      rintro more rfl spelled
      obtain ⟨tail, rfl, _⟩ := (spell_eq_append ['*'] rfl rest more).mp spelled
      exact other tail rfl rfl
    | _ => rw [spell_cons, hold_over _ _ (by simp) first, further, spell_cons]
  | case3 => rfl

private theorem segments_over (mark : Mark) (rest : List Char) (fragment : ∀ c, mark ≠ .char c) :
    Pattern.starSegments (mark.text ++ rest) = mark.text ++ Pattern.starSegments rest := by
  cases mark with
  | char c => exact absurd rfl (fragment c)
  | escaped c special =>
    have other := escaped_ne c '/' special rfl
    simp [text, Pattern.starSegments, other]
  | _ => simp [text, Pattern.starSegments, Pattern.nameChar, Pattern.innerPath,
      Pattern.leadingPath, Pattern.trailingPath, Pattern.wholeName, Pattern.namePart,
      Pattern.anyText]

theorem starSegments_spell (marks : List Mark) :
    Pattern.starSegments (spell marks) = spell (starSegments marks) := by
  fun_induction starSegments marks with
  | case1 rest ih => simp [text, Pattern.starSegments, ih]
  | case2 rest last final =>
    simp only [spell_cons, text, List.cons_append, List.nil_append]
    rw [Pattern.starSegments.eq_2, isFinal_spell, if_pos final]
    · rfl
    · intro more spelled
      obtain ⟨tail, rfl, _⟩ := (spell_eq_append ['/'] rfl rest more).mp spelled
      exact last tail rfl
  | case3 rest last open_ ih =>
    simp only [spell_cons, text, List.cons_append, List.nil_append] at ih ⊢
    rw [Pattern.starSegments.eq_2, isFinal_spell, if_neg open_, ih]
    intro more spelled
    obtain ⟨tail, rfl, _⟩ := (spell_eq_append ['/'] rfl rest more).mp spelled
    exact last tail rfl
  | case4 mark rest closed other ih =>
    cases mark with
    | char c =>
      simp only [spell_cons, text, List.cons_append, List.nil_append]
      rw [Pattern.starSegments.eq_3, ih]
      · rintro more rfl spelled
        obtain ⟨tail, rfl, _⟩ := (spell_eq_append ['*', '/'] rfl rest more).mp spelled
        exact closed tail rfl rfl
      · rintro more rfl spelled
        obtain ⟨tail, rfl, _⟩ := (spell_eq_append ['*'] rfl rest more).mp spelled
        exact other tail rfl rfl
    | _ => rw [spell_cons, segments_over _ _ (by simp), ih, spell_cons]
  | case5 => rfl

theorem stars_spell (marks : List Mark) (starless : ∀ mark ∈ marks, mark.Starless) :
    Pattern.stars (spell marks) = spell (stars marks) := by
  induction marks with
  | nil => rfl
  | cons mark marks ih =>
    have rest := ih (fun other member => starless other (by simp [member]))
    have first := starless mark (by simp)
    simp only [Pattern.stars, stars, spell_cons, List.flatMap_append, List.map_cons] at rest ⊢
    rw [rest]
    congr 1
    cases mark with
    | char c =>
      simp only [text, List.flatMap_cons, List.flatMap_nil, List.append_nil]
      split <;> rfl
    | escaped c special =>
      have other := escaped_ne c '*' special rfl
      simp [text, other]
    | namePart | anyText => exact first.elim
    | _ => rfl

private theorem release_over (mark : Mark) (rest : List Char) (fragment : ∀ c, mark ≠ .char c) :
    Pattern.releaseDoubleStars (mark.text ++ rest) =
      mark.text ++ Pattern.releaseDoubleStars rest := by
  cases mark with
  | char c => exact absurd rfl (fragment c)
  | escaped c special =>
    have other := escaped_ne c '\x00' special rfl
    simp [text, Pattern.releaseDoubleStars, other]
  | _ => simp [text, Pattern.releaseDoubleStars, Pattern.nameChar, Pattern.innerPath,
      Pattern.leadingPath, Pattern.trailingPath, Pattern.wholeName, Pattern.namePart,
      Pattern.anyText]

theorem releaseDoubleStars_spell (marks : List Mark) :
    Pattern.releaseDoubleStars (spell marks) = spell (releaseDoubleStars marks) := by
  fun_induction releaseDoubleStars marks with
  | case1 rest ih => simp [text, Pattern.releaseDoubleStars, ih]
  | case2 mark rest other ih =>
    cases mark with
    | char c =>
      simp only [spell_cons, text, List.cons_append, List.nil_append]
      rw [Pattern.releaseDoubleStars.eq_2, ih]
      rintro more rfl spelled
      obtain ⟨tail, rfl, _⟩ := (spell_eq_append
        ['D', 'O', 'U', 'B', 'L', 'E', 'S', 'T', 'A', 'R', '\x00'] rfl rest more).mp spelled
      exact other tail rfl rfl
    | _ => rw [spell_cons, release_over _ _ (by simp), ih, spell_cons]
  | case3 => rfl

/-! ## What a replacement leaves -/

theorem mem_innerDoubleStars (mark : Mark) (marks : List Mark)
    (member : mark ∈ innerDoubleStars marks) : mark ∈ marks ∨ mark = .innerPath := by
  fun_induction innerDoubleStars marks with grind

theorem mem_leadingDoubleStar (mark : Mark) (marks : List Mark)
    (member : mark ∈ leadingDoubleStar marks) : mark ∈ marks ∨ mark = .leadingPath := by
  unfold leadingDoubleStar at member
  split at member <;> grind

theorem mem_trailingDoubleStar (mark : Mark) (marks : List Mark)
    (member : mark ∈ trailingDoubleStar marks) : mark ∈ marks ∨ mark = .trailingPath := by
  fun_induction trailingDoubleStar marks with grind

theorem mem_holdDoubleStars (mark : Mark) (marks : List Mark)
    (member : mark ∈ holdDoubleStars marks) : mark ∈ marks ∨ mark ∈ heldDoubleStar := by
  fun_induction holdDoubleStars marks with grind

theorem mem_starSegments (mark : Mark) (marks : List Mark)
    (member : mark ∈ starSegments marks) : mark ∈ marks ∨ mark = .wholeName := by
  fun_induction starSegments marks with grind

theorem mem_releaseDoubleStars (mark : Mark) (marks : List Mark)
    (member : mark ∈ releaseDoubleStars marks) : mark ∈ marks ∨ mark = .anyText := by
  fun_induction releaseDoubleStars marks with
  | case1 rest ih =>
    rcases List.mem_cons.mp member with same | member
    · exact .inr same
    · exact (ih member).imp (fun old => by simp [old]) id
  | case2 mark rest _ ih => grind
  | case3 => exact .inl member

theorem openWildcards_spell (text : List Char) :
    Pattern.openWildcards text = spell (openWildcards text) := by
  rw [Pattern.openWildcards, openWildcards, escapeSpecial_spell,
    questionMarks_spell _ (escapeSpecial_unbuilt _), innerDoubleStars_spell,
    leadingDoubleStar_spell]

/-- Characters that the replacements have nothing more to say about, but for separators. -/
def Settled (mark : Mark) : Prop :=
  ∀ c, mark = .char c → isSpecial c = false ∧ c ≠ '?' ∧ c ≠ '*'

theorem unsettled_openWildcards (text : List Char) (mark : Mark)
    (member : mark ∈ openWildcards text) :
    mark.Starless ∧ ∀ c, mark = .char c → isSpecial c = false ∧ c ≠ '?' := by
  -- Each mark is traced back through the replacements to the one that put it there.
  rcases mem_leadingDoubleStar mark _ member with member | rfl
  · rcases mem_innerDoubleStars mark _ member with member | rfl
    · simp only [questionMarks, escapeSpecial, List.map_map, List.mem_map] at member
      obtain ⟨c, _, rfl⟩ := member
      by_cases question : c = '?'
      · subst question
        have ordinary : isSpecial '?' = false := rfl
        simp [ordinary, Starless]
      · by_cases special : isSpecial c = true
        · simp [special, Starless]
        · simp [special, question, Starless]
    · simp [Starless]
  · simp [Starless]

private theorem held_settled (mark : Mark) (member : mark ∈ heldDoubleStar) : mark.Settled := by
  obtain ⟨c, held, rfl⟩ := List.mem_map.mp member
  intro d same
  cases same
  simp only [Pattern.heldDoubleStar, List.mem_cons, List.not_mem_nil, or_false] at held
  rcases held with rfl | rfl | rfl | rfl | rfl | rfl | rfl | rfl | rfl | rfl | rfl | rfl <;> decide

private theorem unsettled_starSegments (text : List Char) (mark : Mark)
    (member : mark ∈ starSegments (holdDoubleStars (trailingDoubleStar (openWildcards text)))) :
    ∀ c, mark = .char c → isSpecial c = false ∧ c ≠ '?' := by
  rcases mem_starSegments mark _ member with member | rfl
  · rcases mem_holdDoubleStars mark _ member with member | held
    · rcases mem_trailingDoubleStar mark _ member with member | rfl
      · exact (unsettled_openWildcards text mark member).2
      · simp
    · have settled := held_settled mark held
      exact fun c same => ⟨(settled c same).1, (settled c same).2.1⟩
  · simp

theorem ofText_settled (text : List Char) (mark : Mark) (member : mark ∈ ofText text) :
    mark.Settled := by
  intro c same
  subst same
  -- A plain character has been one all the way, and the stars are gone when the last step comes.
  rcases mem_releaseDoubleStars _ _ member with member | other
  · obtain ⟨source, present, replaced⟩ := List.mem_map.mp member
    have before := unsettled_starSegments text source present
    cases source with
    | char d =>
      dsimp only at replaced
      split at replaced
      next => cases replaced
      next other =>
        cases replaced
        exact ⟨(before c rfl).1, (before c rfl).2, other⟩
    | _ => cases replaced
  · cases other

section
variable (marks : List Mark) (starless : ∀ mark ∈ marks, mark.Starless)
include starless

theorem starless_trailingDoubleStar : ∀ mark ∈ trailingDoubleStar marks, mark.Starless := by
  intro mark member
  rcases mem_trailingDoubleStar mark marks member with member | rfl
  · exact starless mark member
  · trivial

theorem starless_starSegments : ∀ mark ∈ starSegments (holdDoubleStars marks), mark.Starless := by
  intro mark member
  rcases mem_starSegments mark _ member with member | rfl
  · rcases mem_holdDoubleStars mark marks member with member | held
    · exact starless mark member
    · obtain ⟨c, _, rfl⟩ := List.mem_map.mp held
      trivial
  · trivial

end

/-- The text of a mark in a regular expression. -/
def source (mark : Mark) : List Char := escapeSeparators mark.text

/-- The source of pattern text is that of its marks, one after the other. -/
theorem ofText_source (text : List Char) :
    (Fragment.ofText text).source = (ofText text).flatMap source := by
  have starless := starless_trailingDoubleStar (openWildcards text)
    fun mark member => (unsettled_openWildcards text mark member).1
  simp only [Fragment.ofText, Pattern.closeWildcards, openWildcards_spell, trailingDoubleStar_spell]
  rw [holdDoubleStars_spell _ starless, starSegments_spell,
    stars_spell _ (starless_starSegments _ starless), releaseDoubleStars_spell]
  simp only [ofText, closeWildcards, spell, escapeSeparators, List.flatMap_assoc]
  rfl

theorem ofText_forcesDirectory (text : List Char) :
    (Fragment.ofText text).forcesDirectory = hasTrailingDoubleStar (openWildcards text) := by
  rw [Fragment.ofText, openWildcards_spell, hasTrailingDoubleStar_spell]

end Mark
end IgnoreRules.Pattern
