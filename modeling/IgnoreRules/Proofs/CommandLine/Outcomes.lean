import IgnoreRules.CommandLine.Printing
import IgnoreRules.Proofs.Scan.Failing
import Mathlib.Data.List.TakeWhile

/-!
# How a run ends

A run that has its arguments finishes, reports its trouble or breaks off, and unless it finishes it
prints nothing. Which of these it does follows from how its command returns or fails. How the
program comes to its end depends on this, and on whether the output takes what a run that finishes
prints.
-/

namespace IgnoreRules.CommandLine

/-! ## Trouble -/

/-- Trouble is reported or breaks the run off. -/
theorem Ending.ofTrouble_cases (trouble : Trouble) :
    ofTrouble trouble = .reported trouble ∨
      ∃ cause, trouble = .failure cause ∧ cause.isReported = false ∧
        ofTrouble trouble = .broken cause := by
  unfold ofTrouble
  cases trouble with
  | failure cause =>
    cases reported : cause.isReported with
    | true => simp [reported]
    | false => simp [reported]
  | _ => exact .inl rfl

theorem Ending.ofTrouble_ne_finished (trouble : Trouble) : ofTrouble trouble ≠ .finished := by
  rcases ofTrouble_cases trouble with reported | ⟨cause, _, _, broken⟩
  · simp [reported]
  · simp [broken]

theorem ofTrouble_eq_broken_iff (trouble : Trouble) (cause : Failure) :
    Ending.ofTrouble trouble = .broken cause ↔
      trouble = .failure cause ∧ cause.isReported = false := by
  constructor
  · intro broken
    rcases Ending.ofTrouble_cases trouble with reported | ⟨other, rfl, silent, ending⟩
    · cases reported.symm.trans broken
    · obtain rfl := Ending.broken.inj (ending.symm.trans broken)
      exact ⟨rfl, silent⟩
  · rintro ⟨rfl, silent⟩
    simp [Ending.ofTrouble, silent]

/-! ## The end of a program -/

namespace Outcome

variable [StandardOutput] (outcome : Outcome)

theorem close_eq_escaped_iff :
    outcome.close = .escaped ↔ (∃ cause, outcome.ending = .broken cause) ∨
      outcome.ending = .finished ∧ ∃ text ∈ outcome.printed, StandardOutput.takes text = false := by
  unfold close
  cases outcome.ending with
  | finished => simp
  | _ => simp

theorem close_eq_returned_zero_iff :
    outcome.close = .returned 0 ↔
      outcome.ending = .finished ∧ ∀ text ∈ outcome.printed, StandardOutput.takes text = true := by
  unfold close
  cases outcome.ending with
  | finished => simp
  | _ => simp

theorem close_eq_returned_one_iff :
    outcome.close = .returned 1 ↔ ∃ trouble, outcome.ending = .reported trouble := by
  unfold close
  cases outcome.ending with
  | finished =>
    simp only [reduceCtorEq, exists_false, iff_false]
    split <;> simp
  | _ => simp

/-- An output that takes all that is printed shows it. -/
theorem written_of_takes {outcome : Outcome}
    (takes : ∀ text ∈ outcome.printed, StandardOutput.takes text = true) :
    outcome.written = outcome.output := by
  rw [written, output, List.takeWhile_eq_self_iff.mpr takes]

omit [StandardOutput] in
theorem output_of_silent {outcome : Outcome} (silent : outcome.printed = []) :
    outcome.output = "" := by
  rw [output, silent]
  rfl

theorem written_of_silent {outcome : Outcome} (silent : outcome.printed = []) :
    outcome.written = "" := by
  rw [written, silent]
  rfl

end Outcome

/-! ## The ends of a run -/

/-- The ways in which a run that has its arguments can end. -/
def Ends (outcome : Outcome) : Prop :=
  outcome.ending = .finished ∨
    (∃ trouble, outcome.ending = .reported trouble ∧ outcome.printed = []) ∨
    ∃ cause, outcome.ending = .broken cause

theorem ends_of_trouble (outcome : Outcome) (trouble : Trouble)
    (ending : outcome.ending = .ofTrouble trouble) (silent : outcome.printed = []) :
    Ends outcome := by
  rcases Ending.ofTrouble_cases trouble with reported | ⟨cause, _, _, broken⟩
  · exact .inr (.inl ⟨trouble, ending.trans reported, silent⟩)
  · exact .inr (.inr ⟨cause, ending.trans broken⟩)

/-! ## Commands -/

section

variable [Text.CharacterNames] [Files.OtherCodecs] [Files.WalkLimit]

/-- A command that fails ends as its trouble demands, and prints nothing. -/
theorem carryOut_of_fails (session : Session) (settings : Settings) (command : Command)
    (trouble : Trouble) (failed : Fails (commandLines settings command) session trouble) :
    (carryOut session settings command).ending = .ofTrouble trouble ∧
      (carryOut session settings command).printed = [] := by
  have failed : ((commandLines settings command).run session).1 = .error trouble := failed
  unfold carryOut
  cases ran : (commandLines settings command).run session with
  | mk outcome after =>
    rw [ran] at failed
    cases failed
    exact ⟨rfl, rfl⟩

/-- A command that does not finish leaves its exit code and prints nothing. -/
theorem carryOut_unfinished (session : Session) (settings : Settings) (command : Command)
    (unfinished : (carryOut session settings command).ending ≠ .finished) :
    (carryOut session settings command).code = 1 ∧
      (carryOut session settings command).printed = [] := by
  rcases returns_or_fails (commandLines settings command) session with
    ⟨lines, after, returned⟩ | ⟨trouble, failed⟩
  · exact absurd (prints_of_returns returned).finished unfinished
  · obtain ⟨ending, silent⟩ := carryOut_of_fails session settings command trouble failed
    refine ⟨?_, silent⟩
    rw [Outcome.code, ending]
    rcases Ending.ofTrouble_cases trouble with reported | ⟨cause, _, _, broken⟩
    · rw [reported]
    · rw [broken]

theorem carryOut_broken_iff (session : Session) (settings : Settings) (command : Command)
    (cause : Failure) :
    (carryOut session settings command).ending = .broken cause ↔
      Fails (commandLines settings command) session (.failure cause) ∧
        cause.isReported = false := by
  rcases returns_or_fails (commandLines settings command) session with
    ⟨lines, after, returned⟩ | ⟨trouble, failed⟩
  · have finished := (prints_of_returns returned).finished
    constructor
    · intro broken
      cases finished.symm.trans broken
    · rintro ⟨failed, _⟩
      exact absurd failed (returned.not_fails _)
  · rw [(carryOut_of_fails session settings command trouble failed).1, ofTrouble_eq_broken_iff]
    have only : Fails (commandLines settings command) session (.failure cause) ↔
        trouble = .failure cause := by
      constructor
      · exact failed.unique
      · rintro rfl
        exact failed
    rw [only]

/-! ## Runs -/

variable [Settings.Reader]

theorem run_of_refused (world : World) (words : List String) (exit : Exit)
    (refused : Arguments.ofWords words = .error exit) : run world words = leave world exit := by
  simp only [run, refused]

/-- What a run does once its settings are there. -/
theorem run_of_settings (world : World) (words : List String) (arguments : Arguments)
    (settings : Settings) (read : Arguments.ofWords words = .ok arguments)
    (loaded : settingsOf world arguments = .ok settings) :
    run world words = match openLog world settings with
      | .error trouble => ⟨.ofTrouble trouble, [], "", none, world.files⟩
      | .ok session => carryOut session settings arguments.command := by
  have prepared : prepare world arguments =
      openLog world settings >>= fun session => pure (settings, session) := by
    rw [prepare, loaded]
    rfl
  simp only [run, read, prepared]
  cases openLog world settings <;> rfl

theorem run_ends (world : World) (words : List String) (arguments : Arguments)
    (read : Arguments.ofWords words = .ok arguments) : Ends (run world words) := by
  cases prepared : prepare world arguments with
  | error trouble =>
    apply ends_of_trouble _ trouble
    · simp only [run, read, prepared]
    · simp only [run, read, prepared]
  | ok ready =>
    obtain ⟨settings, session⟩ := ready
    have carried : run world words = carryOut session settings arguments.command := by
      simp only [run, read, prepared]
    rw [carried]
    rcases returns_or_fails (commandLines settings arguments.command) session with
      ⟨lines, after, returned⟩ | ⟨trouble, failed⟩
    · exact .inl (prints_of_returns returned).finished
    · obtain ⟨ending, silent⟩ := carryOut_of_fails session settings _ trouble failed
      exact ends_of_trouble _ trouble ending silent

end

end IgnoreRules.CommandLine
