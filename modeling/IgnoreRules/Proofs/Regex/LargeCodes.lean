import IgnoreRules.Proofs.Regex.ClassReading
import IgnoreRules.Proofs.Regex.Reading
import Mathlib.Algebra.Group.Nat.Defs
import Mathlib.Data.List.Induction

/-!
# Codes that are too large

Reading breaks off at a number of more than 31 bits only where the source spells one out: the
escape `\U` with eight hexadecimal digits is the only way to write it. A source without such an
escape is read, or is in error for another reason.
-/

namespace IgnoreRules

theorem Text.hexValue?_lt (c : Char) (value : Nat) (digit : hexValue? c = some value) :
    value < 16 := by
  unfold hexValue? at digit
  have bound (low high : Char) (within : low ≤ c ∧ c ≤ high) :
      low.toNat ≤ c.toNat ∧ c.toNat ≤ high.toNat := within
  split at digit
  next within =>
    have between := bound '0' '9' within
    cases digit
    simp only [Char.reduceToNat] at between ⊢
    omega
  next =>
    split at digit
    next within =>
      have between := bound 'a' 'f' within
      cases digit
      simp only [Char.reduceToNat] at between ⊢
      omega
    next =>
      split at digit
      next within =>
        have between := bound 'A' 'F' within
        cases digit
        simp only [Char.reduceToNat] at between ⊢
        omega
      next => cases digit

theorem Text.hexNumber?_lt (digits : List Char) (number : Nat)
    (named : hexNumber? digits = some number) : number < 16 ^ digits.length := by
  -- The last digit comes last in the fold as well, so the induction is on the list from its end.
  induction digits using List.reverseRecOn generalizing number with
  | nil =>
    cases named
    decide
  | append_singleton digits c ih =>
    rw [hexNumber?, List.foldl_append] at named
    change (do return 16 * (← hexNumber? digits) + (← hexValue? c)) = some number at named
    cases front : hexNumber? digits with
    | none =>
      rw [front] at named
      cases named
    | some before =>
      cases last : hexValue? c with
      | none =>
        rw [front, last] at named
        cases named
      | some value =>
        rw [front, last] at named
        cases named
        have low := ih before front
        have digit := hexValue?_lt c value last
        rw [List.length_append, List.length_singleton, Nat.pow_succ]
        omega

namespace Regex

/-- A text spells out a number of more than 31 bits. -/
def HoldsLargeCode (text : List Char) : Prop :=
  ∃ digits code, '\\' :: 'U' :: digits <:+: text ∧ digits.length = 8 ∧
    Text.hexNumber? digits = some code ∧ ClassAtom.codeLimit ≤ code

theorem HoldsLargeCode.mono {part text : List Char} (inside : part <:+: text)
    (holds : HoldsLargeCode part) : HoldsLargeCode text := by
  obtain ⟨digits, code, spelled, rest⟩ := holds
  exact ⟨digits, code, spelled.trans inside, rest⟩

theorem HoldsLargeCode.behind (front : List Char) {rest : List Char}
    (holds : HoldsLargeCode rest) : HoldsLargeCode (front ++ rest) :=
  holds.mono (List.suffix_append front rest).isInfix

namespace ClassAtom

/-- The elements of a bracket expression without such a number, or an error for another reason. -/
def Small : Except SyntaxError (List ClassAtom) → Prop
  | .ok atoms => ∀ atom ∈ atoms, atom.tooLarge = false
  | .error problem => problem ≠ .codeTooLarge

theorem Small.cons {first : Except SyntaxError ClassAtom}
    {next : Except SyntaxError (List ClassAtom)} (left : Small (first.map ([·])))
    (right : Small next) : Small (do return (← first) :: (← next)) := by
  cases first with
  | error problem => exact left
  | ok atom =>
    cases next with
    | error problem => exact right
    | ok atoms =>
      have alone : atom.tooLarge = false := left atom (by simp)
      exact List.forall_mem_cons.mpr ⟨alone, right⟩

theorem Small.alone {first : Except SyntaxError ClassAtom} (left : Small (first.map ([·]))) :
    Small (do return [← first]) := left

/-! ### Each kind of element -/

theorem small_ofHex (letter : Char) (digits : List Char) (short : digits.length ≤ 4) :
    Small ((ofHex letter digits).map ([·])) := by
  rw [ofHex]
  split
  next code named =>
    have fits : code < codeLimit :=
      Nat.lt_of_lt_of_le (Text.hexNumber?_lt digits code named)
        (Nat.le_trans (Nat.pow_le_pow_right (by decide) short) (by decide))
    split
    · simp only [Except.map, Small, List.mem_singleton, forall_eq, tooLarge]
      exact decide_eq_false (Nat.not_le_of_lt fits)
    · exact nofun
  next => exact nofun

theorem small_ofOctal (leading : Char) (code : Nat) :
    Small ((ofOctal leading code).map ([·])) := by
  rw [ofOctal]
  split
  next fits =>
    simp only [Except.map, Small, List.mem_singleton, forall_eq, tooLarge]
    exact decide_eq_false (Nat.not_le_of_lt (Nat.lt_of_le_of_lt fits (by decide)))
  next => exact nofun

theorem small_point (c : Char) : Small (.ok [.point c.toNat]) := by
  simp [Small]

theorem small_ofEscape (c : Char) : Small ((ofEscape c).map ([·])) := by
  unfold ofEscape
  split
  case h_14 =>
    split
    · exact nofun
    · exact small_point _
  all_goals simp [Except.map, Small, tooLarge, codeLimit]

section Reading

variable [Text.CharacterNames]

theorem small_ofName (name : List Char) : Small ((ofName name).map ([·])) := by
  rw [ofName]
  split
  · split
    · exact nofun
    · exact small_point _
  · exact nofun

/-- The elements of a bracket expression are small unless its contents spell out a number that is
not. -/
theorem small_scan (name : Option (List Char)) (contents : List Char) :
    HoldsLargeCode contents ∨ Small (scan name contents) := by
  fun_induction scan name contents with
  | case1 => exact .inr (by simp [Small])
  | case2 => exact .inr nofun
  | case3 a b rest ih =>
    exact ih.imp (.behind ['\\', 'x', a, b]) (.cons (small_ofHex _ _ (by simp)))
  | case4 a b c d rest ih =>
    exact ih.imp (.behind ['\\', 'u', a, b, c, d]) (.cons (small_ofHex _ _ (by simp)))
  | case5 a b c d e f g h rest ih =>
    cases named : Text.hexNumber? [a, b, c, d, e, f, g, h] with
    | none => exact .inr (by simp [ofHex, named, bind, Except.bind, Small])
    | some code =>
      by_cases large : codeLimit ≤ code
      · exact .inl ⟨_, code, ⟨[], rest, rfl⟩, rfl, named, large⟩
      · have fits : (point code).tooLarge = false := decide_eq_false large
        refine ih.imp (.behind ['\\', 'U', a, b, c, d, e, f, g, h]) fun small => ?_
        by_cases known : code < 0x110000
        · have read : ofHex 'U' [a, b, c, d, e, f, g, h] = .ok (.point code) := by
            simp [ofHex, named, known]
          have one : Small ((ofHex 'U' [a, b, c, d, e, f, g, h]).map ([·])) := by
            simp [read, Except.map, Small, fits]
          rw [read] at one ⊢
          simpa [bind, Except.bind, fits] using Small.cons one small
        · simp [ofHex, named, known, large, bind, Except.bind, Small]
  | case6 rest ih => exact ih.imp_left (.behind ['\\', 'N', '\x7b'])
  | case7 a rest _ _ _ _ _ ih =>
    exact ih.imp (.behind ['\\', a]) (.cons (small_ofEscape a))
  | case8 => exact .inr (.alone (small_ofOctal _ _))
  | case9 a _ _ c rest _ _ _ _ _ ih =>
    exact ih.imp (.behind ['\\', a]) (.cons (small_ofOctal _ _))
  | case10 => exact .inr (.alone (small_ofOctal _ _))
  | case11 a _ _ b _ _ c rest _ _ _ _ _ ih =>
    exact ih.imp (.behind ['\\', a, b]) (.cons (small_ofOctal _ _))
  | case12 a _ _ b _ _ c rest _ _ _ _ _ _ ih =>
    exact ih.imp (.behind ['\\', a, b, c]) (.cons (small_ofOctal _ _))
  | case13 rest ih =>
    have first : Small ((Except.ok .hyphen).map ([·])) := by simp [Except.map, Small, tooLarge]
    exact ih.imp (.behind ['-']) (.cons first)
  | case14 c rest _ _ _ _ _ _ _ ih =>
    have first : Small ((Except.ok (.point c.toNat)).map ([·])) := small_point c
    exact ih.imp (.behind [c]) (.cons first)
  | case15 => exact .inr nofun
  | case16 name rest ih =>
    exact ih.imp (.behind ['\x7d']) (.cons (small_ofName _))
  | case17 name c rest _ ih => exact ih.imp_left (.behind [c])

end Reading

/-- Small elements never make items of a number that is too large. -/
theorem items_small (atoms : List ClassAtom) (small : ∀ atom ∈ atoms, atom.tooLarge = false) :
    items atoms ≠ .error .codeTooLarge := by
  fun_induction items atoms with
  | case1 first last rest large => simp_all
  | case2 first last rest _ low high _ _ _ ih =>
    have further := ih fun atom member => small atom (by simp [member])
    intro broken
    exact further (by simpa [bind_eq_error_iff, pure, Except.pure] using broken)
  | case3 => nofun
  | case4 => nofun
  | case5 atom rest _ large => simp_all
  | case6 atom rest _ _ ih =>
    have further := ih fun other member => small other (by simp [member])
    intro broken
    exact further (by simpa [bind_eq_error_iff, pure, Except.pure] using broken)
  | case7 => nofun

end ClassAtom

section Reading

variable [Text.CharacterNames]

theorem CharClass.holdsLargeCode_of_read (contents : List Char)
    (broken : CharClass.read contents = .error .codeTooLarge) : HoldsLargeCode contents := by
  have inside (rest : List Char) (negated : Bool)
      (broken : (do return (⟨negated, ← ClassAtom.items (← ClassAtom.read rest)⟩ : CharClass)) =
        .error .codeTooLarge) : HoldsLargeCode rest := by
    rcases ClassAtom.small_scan none rest with holds | small
    · exact holds
    · change ClassAtom.Small (ClassAtom.read rest) at small
      cases read : ClassAtom.read rest with
      | error problem =>
        rw [read] at small broken
        exact absurd (Except.error.inj broken) small
      | ok atoms =>
        rw [read] at small broken
        have items := ClassAtom.items_small atoms small
        exact absurd (by simpa [bind_eq_error_iff, pure, Except.pure] using broken) items
  unfold CharClass.read at broken
  split at broken
  next rest => exact (inside rest true broken).behind ['^']
  next => exact inside _ false broken

omit [Text.CharacterNames] in
theorem Token.ofChar_ne (c : Char) : ofChar c ≠ .error .codeTooLarge := by
  unfold ofChar
  split <;> nofun

omit [Text.CharacterNames] in
theorem Token.ofEscape_ne (c : Char) : ofEscape c ≠ .error .codeTooLarge := by
  rw [ofEscape]
  split <;> nofun

/-- The tokens of a source can only break off in a class. Inside one the contents so far are part
of what spells the number. -/
theorem Token.holdsLargeCode_of_scan (contents : Option (List Char)) (source : List Char)
    (broken : scan contents source = .error .codeTooLarge) :
    HoldsLargeCode ((contents.getD []).reverse ++ source) := by
  -- A token in front of the rest is not what breaks off.
  have later (first : Except SyntaxError Token) (next : Except SyntaxError (List Token))
      (known : first ≠ .error .codeTooLarge)
      (broken : (do return (← first) :: (← next)) = .error .codeTooLarge) :
      next = .error .codeTooLarge := by
    rcases (bind_eq_error_iff _ _ _).mp broken with early | ⟨token, _, broken⟩
    · exact absurd early known
    · simpa [bind_eq_error_iff, pure, Except.pure] using broken
  have known (token : Token) : Except.ok token ≠ .error SyntaxError.codeTooLarge := by simp
  fun_induction scan contents source with
  | case1 => cases broken
  | case2 c rest ih => exact (ih (later _ _ (ofEscape_ne c) broken)).behind ['\\', c]
  | case3 rest ih => exact (ih (later _ _ (known .openGroup) broken)).behind ['(', '?', ':']
  | case4 rest ih =>
    exact (ih (later _ _ (known (.piece .never)) broken)).behind ['(', '?', '!', ')']
  | case5 rest ih => exact (ih broken).behind ['[']
  | case6 rest _ ih => exact (ih broken).behind ['[']
  | case7 rest ih => exact (ih broken).behind ['[']
  | case8 rest _ _ _ ih => exact (ih broken).behind ['[']
  | case9 c rest _ _ _ _ _ _ _ ih => exact (ih (later _ _ (ofChar_ne c) broken)).behind [c]
  | case10 => cases broken
  | case11 contents c rest ih => simpa using ih broken
  | case12 contents rest ih =>
    rcases (bind_eq_error_iff _ _ _).mp broken with early | ⟨set, _, broken⟩
    · exact (CharClass.holdsLargeCode_of_read _ early).mono (List.prefix_append _ _).isInfix
    · have further := ih (later _ _ (known (.piece (.one set))) broken)
      simpa using further.behind (contents.reverse ++ [']'])
  | case13 contents c rest _ _ ih => simpa using ih broken

omit [Text.CharacterNames] in
theorem Reading.step_ne (state : Reading) (token : Token) :
    state.step token ≠ .error .codeTooLarge := by
  cases token with
  | openGroup | bar | piece => simp [step]
  | closeGroup | star | plus =>
    simp only [step]
    split <;> simp

omit [Text.CharacterNames] in
/-- Once there are tokens, nothing looks at numbers any more. -/
theorem Reading.foldlM_ne (tokens : List Token) (state : Reading) :
    tokens.foldlM step state ≠ .error .codeTooLarge := by
  induction tokens generalizing state with
  | nil => nofun
  | cons token tokens ih =>
    rw [List.foldlM_cons]
    intro broken
    rcases (bind_eq_error_iff _ _ _).mp broken with early | ⟨next, _, later⟩
    · exact step_ne state token early
    · exact ih next later

/-- A source that breaks off the reading spells out a number that is too large. -/
theorem holdsLargeCode_of_read (source : List Char)
    (broken : read source = .error .codeTooLarge) : HoldsLargeCode source := by
  rcases (bind_eq_error_iff _ _ _).mp broken with early | ⟨tokens, _, broken⟩
  · simpa using Token.holdsLargeCode_of_scan none source early
  · rcases (bind_eq_error_iff _ _ _).mp broken with early | ⟨last, _, broken⟩
    · exact absurd early (Reading.foldlM_ne tokens .fresh)
    · rw [Reading.finish] at broken
      split at broken <;> cases broken

end Reading

end Regex
end IgnoreRules
