import IgnoreRules.CommandLine.Arguments
import IgnoreRules.Proofs.Outcome

/-!
# How a command line is read

Every word has its part in a command line before any of them takes effect. Where an operand takes
along whatever follows it, the first one ends the reading: so a command gets all words behind its
name as they were written, and an option in front of it changes only what it is for.
-/

namespace IgnoreRules.CommandLine

namespace Grammar

variable {α : Type}

/-! ## Words -/

theorem written_abbreviated (grammar : Grammar α) (text : List Char) (word : Word α)
    (read : grammar.abbreviated text = .ok (some word)) : word.written = text := by
  simp only [abbreviated] at read
  split at read
  next long =>
    cases found : grammar.startingWith (cutAtEquals text).1 with
    | nil => simp [found] at read
    | cons first others =>
      cases others with
      | nil =>
        simp only [found, Except.ok.injEq, Option.some.injEq] at read
        rw [← read]
        rfl
      | cons _ _ => simp [found] at read
  next short =>
    simp only [Except.ok.injEq, Option.map_eq_some_iff] at read
    obtain ⟨spec, _, rfl⟩ := read
    rfl

theorem written_classify (grammar : Grammar α) (text : List Char) (word : Word α)
    (read : grammar.classify text = .ok word) : word.written = text := by
  unfold classify at read
  -- Whatever part a word has, it keeps its text.
  split at read
  · cases read
    rfl
  split at read
  · cases read
    rfl
  split at read
  · cases read
    rfl
  split at read
  split at read
  · cases read
    rfl
  · obtain ⟨found, abbreviated, read⟩ := (bind_eq_ok_iff _ _ _).mp read
    cases found with
    | some found =>
      cases read
      exact written_abbreviated grammar text word abbreviated
    | none =>
      simp only at read
      split at read
      · cases read
        rfl
      · cases read
        rfl

theorem written_words (grammar : Grammar α) (texts : List (List Char)) (words : List (Word α))
    (read : grammar.words texts = .ok words) : words.map Word.written = texts := by
  induction texts generalizing words with
  | nil =>
    cases read
    rfl
  | cons text rest ih =>
    unfold Grammar.words at read
    split at read
    next separator =>
      cases read
      simp [separator, Word.written, Function.comp_def]
    next other =>
      simp only [bind_eq_ok_iff] at read
      obtain ⟨word, classified, others, readRest, ⟨⟩⟩ := read
      rw [List.map_cons, written_classify grammar text word classified, ih others readRest]

theorem texts_words (grammar : Grammar α) (texts : List String) (words : List (Word α))
    (read : grammar.words (texts.map String.toList) = .ok words) : Word.texts words = texts := by
  have written := written_words grammar _ words read
  have same : Word.texts words = (words.map Word.written).map String.ofList := by
    simp [Word.texts]
  rw [same, written, List.map_map]
  simp [Function.comp_def]

theorem words_operand (grammar : Grammar α) (text : List Char) (rest : List (List Char))
    (plain : text.head? ≠ some '-') :
    grammar.words (text :: rest) = (grammar.words rest).map (.operand text :: ·) := by
  have notSeparator : text ≠ ['-', '-'] := by
    rintro rfl
    exact plain rfl
  have classified : grammar.classify text = .ok (.operand text) := by
    simp [classify, plain]
    rfl
  rw [Grammar.words, if_neg notSeparator, classified]
  cases grammar.words rest <;> rfl

/-! ## Options and operands -/

/-- Where an operand takes along whatever follows it, an operand ends the reading. -/
theorem readWords_operand (grammar : Grammar α) (everything : grammar.arity = .everything)
    (state : α) (fuel : Nat) (text : List Char) (rest : List (Word α)) :
    grammar.readWords true state [] (fuel + 2) (.operand text :: rest) =
      (grammar.operands (Word.texts (.operand text :: rest)) state).map fun state => (state, []) := by
  have taken : grammar.applyOperands true (.operand text :: rest) state =
      (grammar.operands (Word.texts (.operand text :: rest)) state).map fun state => (state, []) := by
    simp only [applyOperands, everything, Arity.take?]
    cases grammar.operands (Word.texts (.operand text :: rest)) state <;> rfl
  -- All words are plain, or one of them looks like an option: no word is left over either way.
  unfold readWords
  simp only [if_true, taken]
  cases grammar.operands (Word.texts (.operand text :: rest)) state with
  | error exit => split <;> rfl
  | ok state => split <;> rfl

/-- An option that takes a value takes the next word for it. -/
theorem readWords_value (grammar : Grammar α) (spec : OptionSpec α) (takesValue : spec.takesValue)
    (pending : Bool) (state : α) (fuel : Nat) (name text value : List Char) (rest : List (Word α)) :
    grammar.readWords pending state [] (fuel + 1)
        (.option spec name none text :: .operand value :: rest) =
      spec.apply (String.ofList value) state >>= fun state =>
        grammar.readWords pending state [] fuel rest := by
  have given : grammar.applyOption spec name none (.operand value :: rest) state =
      (spec.apply (String.ofList value) state).map fun state => (state, [], rest) := by
    simp only [applyOption, pure_bind, List.foldlM_nil, Grammar.given, takesValue, Bool.not_true,
      Bool.false_eq_true, if_false]
    change (spec.apply (String.ofList value) state >>= fun state => pure (state, [], rest)) = _
    cases spec.apply (String.ofList value) state <;> rfl
  rw [readWords]
  simp only [List.all_cons, Word.isPlain, Bool.false_and, Bool.false_eq_true, if_false, given]
  cases spec.apply (String.ofList value) state <;> rfl

end Grammar

namespace Arguments

/-! ## Commands -/

def rulesOption : OptionSpec PartialArguments :=
  .value ["-r", "--rules"] fun given arguments => { arguments with rules := some given }

theorem classify_rules : grammar.classify "--rules".toList =
    .ok (.option rulesOption "--rules".toList none "--rules".toList) := by
  rfl

theorem texts_operand_cons (command : String) (rest : List String)
    (words : List (Word PartialArguments))
    (read : grammar.words (rest.map String.toList) = .ok words) :
    Word.texts (.operand command.toList :: words) = command :: rest := by
  have others := grammar.texts_words rest words read
  simp only [Word.texts] at others
  simp only [Word.texts, List.map_cons, others]
  simp only [Word.written, String.ofList_toList]

/-- A command line that starts with a command: all words are to have a part in it, and the rest is
for the command to read. -/
theorem read_command (start : PartialArguments) (command : String) (rest : List String)
    (plain : command.toList.head? ≠ some '-') :
    grammar.read start (command :: rest) =
      grammar.words (rest.map String.toList) >>= fun _ =>
        (readCommand (command :: rest) start).map fun read => (read, []) := by
  simp only [Grammar.read, List.map_cons, grammar.words_operand _ _ plain]
  cases parts : grammar.words (rest.map String.toList) with
  | error exit => rfl
  | ok words =>
    have readOn := grammar.readWords_operand rfl start words.length command.toList words
    rw [texts_operand_cons command rest words parts] at readOn
    exact readOn

/-- With the option for the rule file in front of the command. -/
theorem read_rules_command (start : PartialArguments) (file command : String)
    (rest : List String) (noOption : file.toList.head? ≠ some '-')
    (plain : command.toList.head? ≠ some '-') :
    grammar.read start ("--rules" :: file :: command :: rest) =
      grammar.read { start with rules := some file } (command :: rest) := by
  rw [read_command _ command rest plain]
  have front : grammar.words ("--rules".toList :: file.toList :: command.toList ::
      rest.map String.toList) = (grammar.words (rest.map String.toList)).map fun words =>
        .option rulesOption "--rules".toList none "--rules".toList :: .operand file.toList ::
          .operand command.toList :: words := by
    rw [Grammar.words, if_neg (by decide), classify_rules, grammar.words_operand _ _ noOption,
      grammar.words_operand _ _ plain]
    cases grammar.words (rest.map String.toList) <;> rfl
  simp only [Grammar.read, List.map_cons, front]
  cases parts : grammar.words (rest.map String.toList) with
  | error exit => rfl
  | ok words =>
    -- The option takes the file, and the command then stands at the front.
    have readOn := grammar.readWords_operand rfl { start with rules := some file } (words.length + 1)
      command.toList words
    rw [texts_operand_cons command rest words parts] at readOn
    have value := grammar.readWords_value rulesOption rfl true start (words.length + 3)
      "--rules".toList "--rules".toList file.toList (.operand command.toList :: words)
    rw [String.ofList_toList] at value
    exact value.trans readOn

theorem readCommand_rules (words : List String) (start : PartialArguments) (file : Option String) :
    readCommand words { start with rules := file } =
      (readCommand words start).map fun read => { read with rules := file } := by
  unfold readCommand
  split
  · cases checkGrammar.read [] _ <;> rfl
  · cases scanGrammar.read _ _ <;> rfl
  · rfl

/-- The option for the rule file changes nothing else. -/
theorem ofWords_rules (file command : String) (rest : List String)
    (noOption : file.toList.head? ≠ some '-') (plain : command.toList.head? ≠ some '-') :
    ofWords ("--rules" :: file :: command :: rest) =
      (ofWords (command :: rest)).map fun arguments => { arguments with rules := some file } := by
  have changed := readCommand_rules (command :: rest) ⟨none, none, none, none, false, none, []⟩
    (some file)
  simp only [ofWords, read_rules_command _ file command rest noOption plain,
    read_command _ command rest plain, changed]
  cases grammar.words (rest.map String.toList) with
  | error exit => rfl
  | ok words =>
    cases readCommand (command :: rest) ⟨none, none, none, none, false, none, []⟩ with
    | error exit => rfl
    | ok read =>
      simp only [Except.map, bind, Except.bind]
      cases read.command with
      | none => rfl
      | some command =>
        simp only
        split <;> rfl

/-- A check without options in front of it. -/
theorem ofWords_check (rest : List String) (arguments : Arguments)
    (read : ofWords ("check" :: rest) = .ok arguments) :
    ∃ paths, arguments = ⟨none, none, none, none, false, .check paths⟩ := by
  simp only [ofWords, read_command _ "check" rest (by decide), readCommand, bind_eq_ok_iff,
    map_eq_ok_iff] at read
  obtain ⟨_, ⟨_, _, _, ⟨⟨paths, unused⟩, _, ⟨⟩⟩, ⟨⟩⟩, accepted⟩ := read
  simp only at accepted
  split at accepted
  · cases accepted
  · cases accepted
    exact ⟨paths, rfl⟩

end Arguments
end IgnoreRules.CommandLine
