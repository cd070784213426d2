import IgnoreRules.Regex.ClassSyntax

/-!
# Reading a class

Without hyphens and without escapes of letters or digits the contents of a bracket expression name
the members of the class one by one, and such contents can always be read. A number too large for a
code is met only where the contents hold the escape that spells it.
-/

namespace IgnoreRules.Regex

/-- What takes no character along and does not end the text is no backslash. -/
theorem ne_backslash {c : Char} {rest : List Char}
    (escape : ∀ (d : Char) (more : List Char), c = '\\' → rest = d :: more → False)
    (lone : c = '\\' → rest = [] → False) : c ≠ '\\' := by
  rintro rfl
  cases rest with
  | nil => exact lone rfl rfl
  | cons d rest => exact escape d rest rfl rfl

namespace ClassAtom

/-- Contents without a hyphen in which a backslash only stands before characters that have no other
meaning for it. -/
def Plain : List Char → Bool
  | '\\' :: c :: rest => !c.isAlphanum && Plain rest
  | ['\\'] => false
  | c :: rest => c ≠ '-' && Plain rest
  | [] => true

/-- The characters that contents name, with the backslash taken off those that have one. -/
def members : List Char → List Char
  | '\\' :: c :: rest => c :: members rest
  | c :: rest => c :: members rest
  | [] => []

theorem plain_append (first second : List Char) (left : Plain first = true)
    (right : Plain second = true) : Plain (first ++ second) = true := by
  fun_induction Plain first with
  | case1 c rest ih =>
    simp only [Bool.and_eq_true] at left
    simp [Plain, left.1, ih left.2]
  | case2 => cases left
  | case3 c rest escape lone ih =>
    have other : c ≠ '\\' := ne_backslash escape lone
    simp only [Bool.and_eq_true] at left
    rw [List.cons_append, Plain.eq_3 _ _ (by simp [other]) (by simp [other]), left.1, ih left.2]
    rfl
  | case4 => exact right

theorem plain_of_not_mem (text : List Char) (hyphen : '-' ∉ text) (escape : '\\' ∉ text) :
    Plain text = true ∧ members text = text := by
  induction text with
  | nil => exact ⟨rfl, rfl⟩
  | cons c text ih =>
    simp only [List.mem_cons, not_or] at hyphen escape
    have ⟨plain, same⟩ := ih hyphen.2 escape.2
    have other (d : Char) (rest : List Char) (first : c = '\\') (_ : text = d :: rest) : False :=
      escape.1 first.symm
    rw [Plain.eq_3 _ _ other fun first _ => escape.1 first.symm, members.eq_2 _ _ other, plain, same]
    exact ⟨by simp [Ne.symm hyphen.1], rfl⟩

section Reading

variable [Text.CharacterNames]

/-- An escaped character that is neither a letter nor a digit stands for itself. -/
theorem read_escaped (c : Char) (rest : List Char) (reserved : c.isAlphanum = false) :
    read ('\\' :: c :: rest) = (do return .point c.toNat :: (← read rest)) := by
  have apart (d : Char) (letter : d.isAlphanum = true) : c ≠ d := by
    rintro rfl
    simp [letter] at reserved
  have known : ofEscape c = .ok (.point c.toNat) := by
    unfold ofEscape
    split
    case h_14 => simp [reserved]
    all_goals exact absurd rfl (apart _ rfl)
  have digit : octalValue? c = none := by
    rw [octalValue?, if_neg]
    rintro ⟨low, high⟩
    have range : 48 ≤ c.toNat ∧ c.toNat ≤ 57 := ⟨low, Nat.le_trans high (by decide)⟩
    simp [Char.isAlphanum, Char.isDigit_iff_toNat.mpr range] at reserved
  rw [read, scan.eq_7 _ _ (fun _ _ _ same _ => apart 'x' rfl same)
    (fun _ _ _ _ _ same _ => apart 'u' rfl same)
    (fun _ _ _ _ _ _ _ _ _ same _ => apart 'U' rfl same) (fun _ same _ => apart 'N' rfl same),
    digit, known]
  rfl

theorem read_point (c : Char) (rest : List Char) (escape : c ≠ '\\') (hyphen : c ≠ '-') :
    read (c :: rest) = (do return .point c.toNat :: (← read rest)) :=
  scan.eq_9 c rest (fun same _ => escape same) (fun _ _ _ same _ => escape same)
    (fun _ _ _ _ _ same _ => escape same) (fun _ _ _ _ _ _ _ _ _ same _ => escape same)
    (fun _ same _ => escape same) (fun _ _ same _ => escape same) hyphen

theorem read_hyphen (rest : List Char) :
    read ('-' :: rest) = (do return .hyphen :: (← read rest)) := scan.eq_8 rest

/-- Plain contents are read as their members, one after the other. -/
theorem read_plain (contents : List Char) (plain : Plain contents = true) :
    read contents = .ok ((members contents).map fun c => .point c.toNat) := by
  fun_induction Plain contents with
  | case1 c rest ih =>
    simp only [Bool.and_eq_true, Bool.not_eq_true'] at plain
    rw [read_escaped c rest plain.1, ih plain.2]
    rfl
  | case2 => cases plain
  | case3 c rest escape lone ih =>
    have other : c ≠ '\\' := ne_backslash escape lone
    simp only [Bool.and_eq_true, decide_eq_true_eq] at plain
    rw [read_point c rest other plain.1, ih plain.2, members.eq_2 _ _ escape]
    rfl
  | case4 => rfl

end Reading

/-- No character has a number that is too large. -/
@[simp] theorem tooLarge_point (c : Char) : (point c.toNat).tooLarge = false := by
  have bound : c.toNat < 0x110000 := by
    rcases c.valid with low | ⟨_, high⟩
    · exact Nat.lt_trans low (by decide)
    · exact high
  exact decide_eq_false (by rw [codeLimit]; omega)

/-- Before anything but a hyphen an element stands alone. -/
theorem items_alone (atom : ClassAtom) (rest : List ClassAtom)
    (alone : ∀ last more, rest ≠ .hyphen :: last :: more) (small : atom.tooLarge = false) :
    items (atom :: rest) = (do return atom.toItem :: (← items rest)) := by
  rw [items.eq_2 atom rest alone, small]
  rfl

/-- Without hyphens there are no ranges. -/
theorem items_points (members : List Char) :
    items (members.map fun c => .point c.toNat) =
      .ok (members.map fun c => .range c.toNat c.toNat) := by
  induction members with
  | nil => rfl
  | cons c members ih =>
    have alone (last : ClassAtom) (more : List ClassAtom) :
        (members.map fun c => point c.toNat) ≠ .hyphen :: last :: more := by
      cases members <;> nofun
    rw [List.map_cons, items_alone _ _ alone (tooLarge_point c), ih]
    rfl

end ClassAtom

namespace CharClass

/-- The class of some characters, or of all others. -/
def ofMembers (negated : Bool) (members : List Char) : CharClass :=
  ⟨negated, members.map fun c => .range c.toNat c.toNat⟩

theorem contains_ofMembers (negated : Bool) (members : List Char) (c : Char) :
    (ofMembers negated members).contains c = (members.contains c != negated) := by
  have covered : (ofMembers negated members).items.any (·.contains c) = members.contains c := by
    simp only [ofMembers, List.any_map, Function.comp_def]
    rw [Bool.eq_iff_iff, List.any_eq_true, List.contains_iff_mem]
    simp only [ClassItem.contains, Bool.and_eq_true, decide_eq_true_eq]
    constructor
    · rintro ⟨d, member, low, high⟩
      obtain rfl : d = c := Char.toNat_inj.mp (by omega)
      exact member
    · exact fun member => ⟨c, member, Nat.le_refl _, Nat.le_refl _⟩
  rw [contains, covered]
  rfl

section Reading

variable [Text.CharacterNames]

theorem read_of_head (contents : List Char) (first : contents.head? ≠ some '^') :
    read contents = (do return ⟨false, ← ClassAtom.items (← ClassAtom.read contents)⟩) :=
  read.eq_2 contents fun rest same => first (by rw [same]; rfl)

/-- Plain contents are the class of their members, and behind a caret that of all others. -/
theorem read_plain (contents : List Char) (plain : ClassAtom.Plain contents = true) :
    (contents.head? ≠ some '^' →
        read contents = .ok (ofMembers false (ClassAtom.members contents))) ∧
      read ('^' :: contents) = .ok (ofMembers true (ClassAtom.members contents)) := by
  have items := ClassAtom.items_points (ClassAtom.members contents)
  refine ⟨fun first => ?_, ?_⟩
  · rw [read_of_head contents first, ClassAtom.read_plain _ plain]
    change (do return (⟨false, ← ClassAtom.items _⟩ : CharClass)) = _
    rw [items]
    rfl
  · rw [read.eq_1, ClassAtom.read_plain _ plain]
    change (do return (⟨true, ← ClassAtom.items _⟩ : CharClass)) = _
    rw [items]
    rfl

end Reading

end CharClass
end IgnoreRules.Regex
