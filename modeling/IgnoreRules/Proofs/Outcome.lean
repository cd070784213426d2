/-!
# Outcomes of steps

Work that goes in steps and may fail: what its outcome says about the outcomes of the steps.
-/

namespace IgnoreRules

variable {ε ε' α β : Type}

theorem bind_eq_ok_iff (first : Except ε α) (next : α → Except ε β) (value : β) :
    (first >>= next) = .ok value ↔ ∃ middle, first = .ok middle ∧ next middle = .ok value := by
  cases first with
  | error problem => simp [bind, Except.bind]
  | ok middle => simp [bind, Except.bind]

theorem bind_eq_error_iff (first : Except ε α) (next : α → Except ε β) (problem : ε) :
    (first >>= next) = .error problem ↔
      first = .error problem ∨ ∃ middle, first = .ok middle ∧ next middle = .error problem := by
  cases first with
  | error problem => simp [bind, Except.bind]
  | ok middle => simp [bind, Except.bind]

/-- Work that goes on only where a test has been passed. -/
theorem passed_eq_ok_iff (passed : Bool) (problem : ε) (rest : Except ε α) (value : α) :
    (if (!passed) = true then (do throw problem; rest) else rest) = .ok value ↔
      passed = true ∧ rest = .ok value := by
  cases passed <;> simp [throw, throwThe, MonadExceptOf.throw, bind, Except.bind]

theorem passed_eq_error_iff (passed : Bool) (problem cause : ε) (rest : Except ε α) :
    (if (!passed) = true then (do throw problem; rest) else rest) = .error cause ↔
      passed = false ∧ problem = cause ∨ passed = true ∧ rest = .error cause := by
  cases passed <;> simp [throw, throwThe, MonadExceptOf.throw, bind, Except.bind]

theorem map_eq_ok_iff (outcome : Except ε α) (change : α → β) (value : β) :
    outcome.map change = .ok value ↔ ∃ middle, outcome = .ok middle ∧ change middle = value := by
  cases outcome <;> simp [Except.map]

theorem map_eq_error_iff (outcome : Except ε α) (change : α → β) (problem : ε) :
    outcome.map change = .error problem ↔ outcome = .error problem := by
  cases outcome <;> simp [Except.map]

theorem mapError_eq_ok_iff (outcome : Except ε α) (change : ε → ε') (value : α) :
    outcome.mapError change = .ok value ↔ outcome = .ok value := by
  cases outcome with
  | error problem =>
    constructor
    · rintro ⟨⟩
    · rintro ⟨⟩
  | ok given =>
    constructor
    · rintro ⟨⟩
      rfl
    · rintro ⟨⟩
      rfl

theorem mapError_eq_error_iff (outcome : Except ε α) (change : ε → ε') (problem : ε') :
    outcome.mapError change = .error problem ↔
      ∃ cause, outcome = .error cause ∧ change cause = problem := by
  cases outcome with
  | error cause =>
    constructor
    · intro failed
      exact ⟨cause, rfl, Except.error.inj failed⟩
    · rintro ⟨_, ⟨⟩, rfl⟩
      rfl
  | ok given =>
    constructor
    · rintro ⟨⟩
    · rintro ⟨_, ⟨⟩, _⟩

/-- A view of a result shows that there is one. -/
theorem ok_of_view {outcome : Except ε α} {view : α → β} {shown : β}
    (seen : outcome.toOption.map view = some shown) :
    ∃ value, outcome = .ok value ∧ view value = shown := by
  cases outcome with
  | error problem => cases seen
  | ok value => exact ⟨value, rfl, Option.some.inj seen⟩

theorem toOption_eq_some_iff (outcome : Except ε α) (value : α) :
    outcome.toOption = some value ↔ outcome = .ok value := by
  cases outcome <;> simp [Except.toOption]

end IgnoreRules
