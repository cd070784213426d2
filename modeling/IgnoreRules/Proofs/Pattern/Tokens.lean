import IgnoreRules.Proofs.Pattern.Seam

/-!
# Replacing in tokens

The replacements share one text, and the fragments that they put in hold the very characters that
other replacements look for. Here the same series runs over tokens: a character of the pattern, or
a fragment, which no replacement looks into, or a `**` that is held back. An end of the text is an
end of the list.

The text is spelled by the tokens after every replacement, so none of them ever meets a fragment as
anything but a whole, and what one has put in stays to the end.
-/

namespace IgnoreRules.Pattern

/-- The replacements from a final `/**` on. -/
def closings : List (List Char → List Char) :=
  [trailingDoubleStar, holdDoubleStars, starSegments, stars, releaseDoubleStars]

/-- The replacements of a text in their order. -/
def replacements : List (List Char → List Char) :=
  escapeSpecial :: questionMarks :: innerDoubleStars :: leadingDoubleStar :: closings

/-- What a series of replacements begins with and makes of it, one after the other. -/
def course {α : Type} (replacements : List (α → α)) (start : α) : List α :=
  replacements.scanl (fun current replace => replace current) start

@[simp] theorem course_nil {α : Type} (start : α) : course [] start = [start] := rfl

@[simp] theorem course_cons {α : Type} (replace : α → α) (rest : List (α → α)) (start : α) :
    course (replace :: rest) start = start :: course rest (replace start) := List.scanl_cons

/-- A course ends with the outcome of the whole series. -/
theorem course_getLast? {α : Type} (replacements : List (α → α)) (start : α) :
    (course replacements start).getLast? =
      some (replacements.foldl (fun current replace => replace current) start) :=
  List.getLast?_scanl

/-- A character of pattern text, a fragment that a replacement has put in, or what a `**` is held
back as. -/
inductive Token
  | char (c : Char)
  | fragment (text : List Char)
  | held
  deriving DecidableEq, Repr

namespace Token

def text : Token → List Char
  | .char c => [c]
  | .fragment text => text
  | .held => heldDoubleStar

def spell (tokens : List Token) : List Char := tokens.flatMap text

/-! ## The series of replacements -/

def escapeSpecial (tokens : List Token) : List Token :=
  tokens.map fun
    | .char c => if isSpecial c then .fragment ['\\', c] else .char c
    | token => token

def questionMarks (tokens : List Token) : List Token :=
  tokens.map fun
    | .char c => if c = '?' then .fragment nameChar else .char c
    | token => token

def innerDoubleStars : List Token → List Token
  | .char '/' :: .char '*' :: .char '*' :: .char '/' :: rest =>
    .fragment innerPath :: innerDoubleStars rest
  | token :: rest => token :: innerDoubleStars rest
  | [] => []

def leadingDoubleStar : List Token → List Token
  | .char '*' :: .char '*' :: .char '/' :: rest => .fragment leadingPath :: rest
  | tokens => tokens

def trailingDoubleStar : List Token → List Token
  | [.char '/', .char '*', .char '*'] => [.fragment trailingPath]
  | token :: rest => token :: trailingDoubleStar rest
  | [] => []

def hasTrailingDoubleStar : List Token → Bool
  | [.char '/', .char '*', .char '*'] => true
  | _ :: rest => hasTrailingDoubleStar rest
  | [] => false

def holdDoubleStars : List Token → List Token
  | .char '*' :: .char '*' :: rest => .held :: holdDoubleStars rest
  | token :: rest => token :: holdDoubleStars rest
  | [] => []

/-- The separators around a whole name stay characters. -/
def starSegments : List Token → List Token
  | .char '/' :: .char '*' :: .char '/' :: rest =>
    .char '/' :: .fragment wholeName :: .char '/' :: starSegments rest
  | [.char '/', .char '*'] => [.char '/', .fragment wholeName]
  | token :: rest => token :: starSegments rest
  | [] => []

def stars (tokens : List Token) : List Token :=
  tokens.map fun
    | .char c => if c = '*' then .fragment namePart else .char c
    | token => token

def releaseDoubleStars (tokens : List Token) : List Token :=
  tokens.map fun
    | .held => .fragment anyText
    | token => token

/-- The replacements from a final `/**` on. -/
def closings : List (List Token → List Token) :=
  [trailingDoubleStar, holdDoubleStars, starSegments, stars, releaseDoubleStars]

/-- The replacements in their order. -/
def replacements : List (List Token → List Token) :=
  escapeSpecial :: questionMarks :: innerDoubleStars :: leadingDoubleStar :: closings

/-- The tokens before a final `/**` is looked for. -/
def openWildcards (text : List Char) : List Token :=
  leadingDoubleStar (innerDoubleStars (questionMarks (escapeSpecial ((unescape text).map .char))))

/-- The tokens that pattern text ends up as. -/
def ofText (text : List Char) : List Token :=
  replacements.foldl (fun tokens replace => replace tokens) ((unescape text).map .char)

/-! ## Marks as tokens -/

/-- A mark as a token, where the mark for any text becomes the given one. -/
def ofMark (any : Token) : Mark → Token
  | .char c => .char c
  | .anyText => any
  | mark => .fragment mark.text

section
variable (any : Token) (closed : ∀ c, any ≠ .char c)
include closed

theorem ofMark_eq_char (mark : Mark) (c : Char) : ofMark any mark = .char c ↔ mark = .char c := by
  cases mark <;> simp [ofMark, closed]

/-- Characters among the tokens are characters among the marks. -/
theorem map_ofMark_eq_append (front : List Char) (marks : List Mark) (rest : List Token) :
    marks.map (ofMark any) = front.map .char ++ rest ↔
      ∃ more, marks = front.map .char ++ more ∧ more.map (ofMark any) = rest := by
  induction front generalizing marks with
  | nil => simp
  | cons c front ih =>
    rw [List.map_cons, List.cons_append, List.map_eq_cons_iff]
    simp only [ofMark_eq_char any closed, ih, List.map_cons, List.cons_append]
    constructor
    · rintro ⟨mark, tail, rfl, rfl, more, rfl, last⟩
      exact ⟨more, rfl, last⟩
    · rintro ⟨more, rfl, last⟩
      exact ⟨.char c, front.map .char ++ more, rfl, rfl, more, rfl, last⟩

theorem innerDoubleStars_ofMark (marks : List Mark) :
    innerDoubleStars (marks.map (ofMark any)) =
      (Mark.innerDoubleStars marks).map (ofMark any) := by
  fun_induction Mark.innerDoubleStars marks with
  | case1 rest ih => simp [innerDoubleStars, ofMark, ih, Mark.text]
  | case2 mark rest other ih =>
    rw [List.map_cons, innerDoubleStars.eq_2, ih, List.map_cons]
    intro more first same
    obtain ⟨tail, rfl, _⟩ :=
      (map_ofMark_eq_append any closed ['*', '*', '/'] rest more).mp same
    exact other tail ((ofMark_eq_char any closed mark '/').mp first) rfl
  | case3 => rfl

theorem leadingDoubleStar_ofMark (marks : List Mark) :
    leadingDoubleStar (marks.map (ofMark any)) =
      (Mark.leadingDoubleStar marks).map (ofMark any) := by
  fun_cases Mark.leadingDoubleStar marks with
  | case1 rest => rfl
  | case2 marks other =>
    rw [leadingDoubleStar.eq_2]
    intro more same
    obtain ⟨tail, rfl, _⟩ :=
      (map_ofMark_eq_append any closed ['*', '*', '/'] marks more).mp same
    exact other tail rfl

omit closed in
/-- Without a line feed only the end is final. -/
theorem eq_nil_of_isFinal (marks : List Mark) (inLine : .char '\n' ∉ marks)
    (final : Mark.isFinal marks = true) : marks = [] := by
  unfold Mark.isFinal at final
  split at final
  next => rfl
  next => simp at inLine
  next => cases final

theorem trailingDoubleStar_ofMark (marks : List Mark) (inLine : .char '\n' ∉ marks) :
    trailingDoubleStar (marks.map (ofMark any)) =
        (Mark.trailingDoubleStar marks).map (ofMark any) ∧
      hasTrailingDoubleStar (marks.map (ofMark any)) = Mark.hasTrailingDoubleStar marks := by
  fun_induction Mark.trailingDoubleStar marks with
  | case1 rest final =>
    obtain rfl := eq_nil_of_isFinal rest (by simp_all) final
    exact ⟨rfl, rfl⟩
  | case2 rest open_ ih =>
    have further := ih fun feed => inLine (List.mem_cons_of_mem _ feed)
    -- A line feed would end the text too, but there is none.
    have some : rest ≠ [] := by
      rintro rfl
      exact open_ rfl
    have other (_ : Token.char '/' = .char '/')
        (same : (.char '*' :: .char '*' :: rest).map (ofMark any) = [.char '*', .char '*']) :
        False := by
      simp [ofMark, some] at same
    have same : Mark.hasTrailingDoubleStar (.char '/' :: .char '*' :: .char '*' :: rest) =
        Mark.hasTrailingDoubleStar (.char '*' :: .char '*' :: rest) := by
      simp [Mark.hasTrailingDoubleStar, open_]
    constructor
    · exact (trailingDoubleStar.eq_2 _ _ other).trans (congrArg _ further.1)
    · rw [same, ← further.2]
      exact hasTrailingDoubleStar.eq_2 _ _ other
  | case3 mark rest other ih =>
    have further := ih fun feed => inLine (List.mem_cons_of_mem _ feed)
    have otherToo (first : ofMark any mark = .char '/')
        (same : rest.map (ofMark any) = [.char '*', .char '*']) : False := by
      obtain ⟨tail, rfl, _⟩ := (map_ofMark_eq_append any closed ['*', '*'] rest []).mp same
      exact other tail ((ofMark_eq_char any closed mark '/').mp first) rfl
    constructor
    · exact (trailingDoubleStar.eq_2 _ _ otherToo).trans (congrArg _ further.1)
    · rw [Mark.hasTrailingDoubleStar.eq_2 _ _ other, ← further.2]
      exact hasTrailingDoubleStar.eq_2 _ _ otherToo
  | case4 => exact ⟨rfl, rfl⟩

theorem starSegments_ofMark (marks : List Mark) (inLine : .char '\n' ∉ marks) :
    starSegments (marks.map (ofMark any)) = (Mark.starSegments marks).map (ofMark any) := by
  fun_induction Mark.starSegments marks with
  | case1 rest ih =>
    simp only [List.mem_cons, not_or] at inLine
    simp [starSegments, ofMark, ih inLine.2.2.2, Mark.text]
  | case2 rest last final =>
    obtain rfl := eq_nil_of_isFinal rest (by simp_all) final
    rfl
  | case3 rest last open_ ih =>
    have further := ih fun feed => inLine (List.mem_cons_of_mem _ feed)
    -- Neither of the two forms of a segment begins here, or the marks would have it too.
    refine (starSegments.eq_3 _ _ ?_ ?_).trans (congrArg _ further)
    · intro more _ same
      obtain ⟨tail, found, _⟩ := (map_ofMark_eq_append any closed ['*', '/'] _ more).mp same
      exact last tail (List.cons.inj found).2
    · intro _ same
      obtain ⟨tail, found, none⟩ := (map_ofMark_eq_append any closed ['*'] _ []).mp same
      obtain rfl := List.map_eq_nil_iff.mp none
      obtain rfl := (List.cons.inj found).2
      exact open_ rfl
  | case4 mark rest inner other ih =>
    have further := ih fun feed => inLine (List.mem_cons_of_mem _ feed)
    refine (starSegments.eq_3 _ _ ?_ ?_).trans (congrArg _ further)
    · intro more first same
      obtain ⟨tail, rfl, _⟩ := (map_ofMark_eq_append any closed ['*', '/'] rest more).mp same
      exact inner tail ((ofMark_eq_char any closed mark '/').mp first) rfl
    · intro first same
      obtain ⟨tail, rfl, _⟩ := (map_ofMark_eq_append any closed ['*'] rest []).mp same
      exact other tail ((ofMark_eq_char any closed mark '/').mp first) rfl
  | case5 => rfl

theorem holdDoubleStars_ofMark (marks : List Mark) (built : .anyText ∉ marks) :
    holdDoubleStars (marks.map (ofMark any)) =
      (Mark.placeDoubleStars marks).map (ofMark .held) := by
  fun_induction Mark.placeDoubleStars marks with
  | case1 rest ih =>
    simp only [List.mem_cons, not_or] at built
    simp [holdDoubleStars, ofMark, ih built.2.2]
  | case2 mark rest other ih =>
    simp only [List.mem_cons, not_or] at built
    -- No `**` is held before this replacement, so only the marks that it puts in differ.
    have same : ofMark any mark = ofMark .held mark := by
      cases mark with
      | anyText => exact absurd rfl built.1
      | _ => rfl
    rw [List.map_cons, holdDoubleStars.eq_2, ih built.2, same, List.map_cons]
    intro more first behind
    obtain ⟨tail, rfl, _⟩ := (map_ofMark_eq_append any closed ['*'] rest more).mp behind
    exact other tail ((ofMark_eq_char any closed mark '*').mp first) rfl
  | case3 => rfl

end

/-- A mark as a token after all stars have been released. -/
abbrev plain : Mark → Token := ofMark (.fragment anyText)

theorem escapeSpecial_ofMark (text : List Char) :
    escapeSpecial (text.map .char) = (Mark.escapeSpecial (text.map .char)).map plain := by
  simp only [escapeSpecial, Mark.escapeSpecial, List.map_map]
  congr 1
  funext c
  by_cases special : isSpecial c = true <;> simp [special, ofMark, Mark.text]

theorem questionMarks_ofMark (marks : List Mark) :
    questionMarks (marks.map plain) = (Mark.questionMarks marks).map plain := by
  simp only [questionMarks, Mark.questionMarks, List.map_map]
  congr 1
  funext mark
  cases mark with
  | char c => by_cases question : c = '?' <;> simp [question, ofMark, Mark.text]
  | _ => rfl

theorem stars_ofMark (marks : List Mark) :
    stars (marks.map (ofMark .held)) = (Mark.stars marks).map (ofMark .held) := by
  simp only [stars, Mark.stars, List.map_map]
  congr 1
  funext mark
  cases mark with
  | char c => by_cases star : c = '*' <;> simp [star, ofMark, Mark.text]
  | _ => rfl

theorem releaseDoubleStars_ofMark (marks : List Mark) :
    releaseDoubleStars (marks.map (ofMark .held)) = marks.map plain := by
  simp only [releaseDoubleStars, List.map_map]
  congr 1
  funext mark
  cases mark <;> rfl

theorem spell_plain (marks : List Mark) : spell (marks.map plain) = Mark.spell marks := by
  simp only [spell, Mark.spell, List.flatMap_map]
  congr 1
  funext mark
  cases mark <;> rfl

theorem spell_held (marks : List Mark) :
    spell (marks.map (ofMark .held)) = Mark.spell (Mark.hold marks) := by
  induction marks with
  | nil => rfl
  | cons mark marks ih =>
    cases mark with
    | anyText =>
      rw [Mark.hold_anyText, Mark.spell_append, ← ih]
      rfl
    | _ =>
      rw [Mark.hold_cons _ (by simp), Mark.spell_cons, ← ih]
      rfl

/-! ## Fragments stay -/

/-- The fragment that a token is. What is held back counts as the fragment it gives way to. -/
def fragment? : Token → Option (List Char)
  | .char _ => none
  | .fragment text => some text
  | .held => some anyText

/-- The fragments that have been put in, from left to right. -/
def inserted (tokens : List Token) : List (List Char) := tokens.filterMap fragment?

/-- None of the fragments that are there is lost, changed or moved past another. -/
def Keeps (earlier later : List Token) : Prop := (inserted earlier).Sublist (inserted later)

theorem Keeps.refl (tokens : List Token) : Keeps tokens tokens := List.Sublist.refl _

theorem Keeps.trans {earlier between later : List Token} (first : Keeps earlier between)
    (second : Keeps between later) : Keeps earlier later := List.Sublist.trans first second

section
variable {earlier later : List Token} (kept : Keeps earlier later)
include kept

theorem Keeps.insert (token : Token) : Keeps earlier (token :: later) := by
  simp only [Keeps, inserted, List.filterMap_cons] at kept ⊢
  cases fragment? token with
  | none => exact kept
  | some text => exact kept.cons text

theorem Keeps.replace (token other : Token)
    (same : ∀ text, fragment? token = some text → fragment? other = some text) :
    Keeps (token :: earlier) (other :: later) := by
  cases before : fragment? token with
  | none =>
    have behind := kept.insert other
    simpa only [Keeps, inserted, List.filterMap_cons, before] using behind
  | some text =>
    simp only [Keeps, inserted, List.filterMap_cons, before, same text before] at kept ⊢
    exact kept.cons_cons text

theorem Keeps.cons (token : Token) : Keeps (token :: earlier) (token :: later) :=
  kept.replace token token fun _ same => same

end

/-- Replacing single tokens keeps all if it leaves each fragment and gives way only to what was
held back. -/
theorem keeps_map (replace : Token → Token)
    (fragment : ∀ text, replace (.fragment text) = .fragment text)
    (held : fragment? (replace .held) = some anyText) (tokens : List Token) :
    Keeps tokens (tokens.map replace) := by
  induction tokens with
  | nil => exact Keeps.refl []
  | cons token rest ih =>
    apply ih.replace token (replace token)
    intro text same
    cases token with
    | char c => cases same
    | fragment => rwa [fragment]
    | held => exact held.trans same

theorem escapeSpecial_keeps (tokens : List Token) : Keeps tokens (escapeSpecial tokens) :=
  keeps_map _ (fun _ => rfl) rfl tokens

theorem questionMarks_keeps (tokens : List Token) : Keeps tokens (questionMarks tokens) :=
  keeps_map _ (fun _ => rfl) rfl tokens

theorem innerDoubleStars_keeps (tokens : List Token) : Keeps tokens (innerDoubleStars tokens) := by
  fun_induction innerDoubleStars tokens with
  | case1 rest ih => exact Keeps.insert ih _
  | case2 token rest other ih => exact ih.cons token
  | case3 => exact Keeps.refl []

theorem leadingDoubleStar_keeps (tokens : List Token) :
    Keeps tokens (leadingDoubleStar tokens) := by
  fun_cases leadingDoubleStar tokens with
  | case1 rest => exact Keeps.insert (Keeps.refl rest) _
  | case2 tokens other => exact Keeps.refl tokens

theorem trailingDoubleStar_keeps (tokens : List Token) :
    Keeps tokens (trailingDoubleStar tokens) := by
  fun_induction trailingDoubleStar tokens with
  | case1 => exact Keeps.insert (Keeps.refl []) _
  | case2 token rest other ih => exact ih.cons token
  | case3 => exact Keeps.refl []

theorem holdDoubleStars_keeps (tokens : List Token) : Keeps tokens (holdDoubleStars tokens) := by
  fun_induction holdDoubleStars tokens with
  | case1 rest ih => exact Keeps.insert ih _
  | case2 token rest other ih => exact ih.cons token
  | case3 => exact Keeps.refl []

theorem starSegments_keeps (tokens : List Token) : Keeps tokens (starSegments tokens) := by
  fun_induction starSegments tokens with
  | case1 rest ih => exact ((ih.cons (.char '/')).insert (.fragment wholeName)).insert _
  | case2 => exact ((Keeps.refl []).insert (.fragment wholeName)).insert _
  | case3 token rest inner other ih => exact ih.cons token
  | case4 => exact Keeps.refl []

theorem stars_keeps (tokens : List Token) : Keeps tokens (stars tokens) :=
  keeps_map _ (fun _ => rfl) rfl tokens

theorem releaseDoubleStars_keeps (tokens : List Token) :
    Keeps tokens (releaseDoubleStars tokens) :=
  keeps_map _ (fun _ => rfl) rfl tokens

/-- Each of the replacements leaves what it finds put in. -/
theorem replacements_keep (replace : List Token → List Token) (member : replace ∈ replacements)
    (tokens : List Token) : Keeps tokens (replace tokens) := by
  simp only [replacements, closings, List.mem_cons, List.not_mem_nil, or_false] at member
  rcases member with rfl | rfl | rfl | rfl | rfl | rfl | rfl | rfl | rfl
  · exact escapeSpecial_keeps tokens
  · exact questionMarks_keeps tokens
  · exact innerDoubleStars_keeps tokens
  · exact leadingDoubleStar_keeps tokens
  · exact trailingDoubleStar_keeps tokens
  · exact holdDoubleStars_keeps tokens
  · exact starSegments_keeps tokens
  · exact stars_keeps tokens
  · exact releaseDoubleStars_keeps tokens

/-- What is there at the start of a course of such replacements is there all the way. -/
theorem keeps_of_mem_course (replacements : List (List Token → List Token))
    (keep : ∀ replace ∈ replacements, ∀ tokens, Keeps tokens (replace tokens))
    (start later : List Token) (member : later ∈ course replacements start) :
    Keeps start later := by
  induction replacements generalizing start with
  | nil =>
    obtain rfl := List.mem_singleton.mp member
    exact Keeps.refl later
  | cons replace rest ih =>
    rw [course_cons] at member
    rcases List.mem_cons.mp member with rfl | member
    · exact Keeps.refl later
    · have next : Keeps start (replace start) := keep replace List.mem_cons_self start
      exact next.trans
        (ih (fun other among => keep other (List.mem_cons_of_mem _ among)) _ member)

/-- Whatever is put in on the way stays to the end. -/
theorem course_keeps (replacements : List (List Token → List Token))
    (keep : ∀ replace ∈ replacements, ∀ tokens, Keeps tokens (replace tokens))
    (start : List Token) : (course replacements start).Pairwise Keeps := by
  induction replacements generalizing start with
  | nil => exact List.pairwise_singleton Keeps start
  | cons replace rest ih =>
    have further := ih (fun other among => keep other (List.mem_cons_of_mem _ among))
    rw [course_cons]
    refine List.pairwise_cons.mpr ⟨fun later member => ?_, further (replace start)⟩
    apply keeps_of_mem_course (replace :: rest) keep
    rw [course_cons]
    exact List.mem_cons_of_mem _ member

/-! ## Replacing in the text is replacing tokens -/

theorem spell_chars (text : List Char) : spell (text.map .char) = text := by
  induction text with
  | nil => rfl
  | cons c text ih => exact congrArg (c :: ·) ih

/-- From the search for a final `/**` on, what is made of spelled marks is spelled by what is made
of the marks as tokens. -/
theorem course_closings (marks : List Mark) (starless : ∀ mark ∈ marks, mark.Starless)
    (nul : .char '\x00' ∉ marks) (inLine : .char '\n' ∉ marks) :
    course Pattern.closings (Mark.spell marks) =
      (course closings (marks.map plain)).map spell := by
  have left (mark : Mark) (absent : mark ∉ marks) (other : mark ≠ .trailingPath) :
      mark ∉ Mark.trailingDoubleStar marks :=
    fun member => (Mark.mem_trailingDoubleStar mark marks member).elim absent other
  have starlessToo := Mark.starless_trailingDoubleStar marks starless
  have built : .anyText ∉ Mark.trailingDoubleStar marks :=
    fun member => starlessToo .anyText member
  have feed : .char '\n' ∉ Mark.placeDoubleStars (Mark.trailingDoubleStar marks) := fun member =>
    (Mark.mem_placeDoubleStars _ _ member).elim (left _ inLine (by simp)) (by simp)
  have nulToo := Mark.nul_stars _ (left _ nul (by simp))
  -- First the tokens are written as marks, then the texts are written as spelled marks.
  simp only [Pattern.closings, closings, course_cons, course_nil, List.map_cons, List.map_nil]
  rw [(trailingDoubleStar_ofMark _ (by simp) _ inLine).1,
    holdDoubleStars_ofMark _ (by simp) _ built, starSegments_ofMark _ (by simp) _ feed,
    stars_ofMark, releaseDoubleStars_ofMark]
  simp only [spell_plain, spell_held]
  rw [Mark.trailingDoubleStar_spell, Mark.holdDoubleStars_spell _ starlessToo,
    Mark.starSegments_spell, Mark.stars_spell _ (Mark.starless_starSegments _ starlessToo),
    Mark.releaseDoubleStars_spell, Mark.holdDoubleStars_eq _ built, Mark.starSegments_hold,
    Mark.stars_hold, Mark.release_hold _ nulToo]

section
variable (text : List Char)

/-- What the replacements make of the text, one after the other, is spelled by what they make of
its characters as tokens. -/
theorem course_text (nul : '\x00' ∉ text) (inLine : '\n' ∉ text) :
    course Pattern.replacements (unescape text) =
      (course replacements ((unescape text).map .char)).map spell := by
  have left (c : Char) (absent : c ∉ text) : .char c ∉ Mark.openWildcards text :=
    fun member => absent (Mark.mem_openWildcards c text member)
  have closed := course_closings (Mark.openWildcards text)
    (fun mark member => (Mark.unsettled_openWildcards text mark member).1)
    (left '\x00' nul) (left '\n' inLine)
  simp only [Pattern.replacements, replacements, course_cons, List.map_cons, spell_chars]
  rw [escapeSpecial_ofMark, questionMarks_ofMark, innerDoubleStars_ofMark _ (by simp),
    leadingDoubleStar_ofMark _ (by simp), ← Mark.openWildcards, ← closed]
  simp only [spell_plain]
  rw [Mark.escapeSpecial_spell, Mark.questionMarks_spell _ (Mark.escapeSpecial_unbuilt _),
    Mark.innerDoubleStars_spell, Mark.leadingDoubleStar_spell, ← Mark.openWildcards]

theorem openWildcards_ofMark :
    openWildcards text = (Mark.openWildcards text).map plain := by
  rw [openWildcards, escapeSpecial_ofMark, questionMarks_ofMark,
    innerDoubleStars_ofMark _ (by simp), leadingDoubleStar_ofMark _ (by simp),
    Mark.openWildcards]

/-- Replacing in the text and replacing in tokens, which nothing looks into, come out the same, with
every separator escaped at the end and with the same answer about a final `/**`. They agree after
each single replacement, and what one of them puts in is left alone by all that follow. -/
theorem spells_ofText (nul : '\x00' ∉ text) (inLine : '\n' ∉ text) :
    Fragment.ofText text =
        ⟨escapeSeparators (spell (ofText text)), hasTrailingDoubleStar (openWildcards text)⟩ ∧
      course Pattern.replacements (unescape text) =
        (course replacements ((unescape text).map .char)).map spell ∧
      (course replacements ((unescape text).map .char)).Pairwise Keeps := by
  -- The texts agree all the way, so the last of them do.
  have spelled := course_text text nul inLine
  have last := congrArg List.getLast? spelled
  rw [List.getLast?_map, course_getLast?, course_getLast?] at last
  have source : (Fragment.ofText text).source = escapeSeparators (spell (ofText text)) :=
    congrArg escapeSeparators (Option.some.inj last)
  have flag := Mark.ofText_forcesDirectory text
  rw [← (trailingDoubleStar_ofMark (.fragment anyText) (by simp) _ fun member =>
    inLine (Mark.mem_openWildcards '\n' text member)).2, ← openWildcards_ofMark] at flag
  refine ⟨?_, spelled, course_keeps replacements replacements_keep _⟩
  rw [← source, ← flag]

end

/-- A text with a fragment of every kind. -/
theorem spells_wildcards :
    ('\x00' ∉ "**/?/**/b/*/.c**d*/**".toList ∧ '\n' ∉ "**/?/**/b/*/.c**d*/**".toList) ∧
      Fragment.ofText "**/?/**/b/*/.c**d*/**".toList =
        ⟨escapeSeparators (spell [.fragment leadingPath, .fragment nameChar, .fragment innerPath,
          .char 'b', .char '/', .fragment wholeName, .char '/', .fragment ['\\', '.'], .char 'c',
          .fragment anyText, .char 'd', .fragment namePart, .fragment trailingPath]), true⟩ := by
  have nul : '\x00' ∉ "**/?/**/b/*/.c**d*/**".toList := by simp
  have inLine : '\n' ∉ "**/?/**/b/*/.c**d*/**".toList := by simp
  exact ⟨⟨nul, inLine⟩, (spells_ofText _ nul inLine).1⟩

end Token
end IgnoreRules.Pattern
