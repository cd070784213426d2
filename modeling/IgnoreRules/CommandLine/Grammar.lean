import IgnoreRules.Text.Digit

/-!
# Command-line grammars

A command line is a list of words. A word that starts with a dash is an option if it, or
the part of it before `=`, is the name of one, or the beginning of a single long name; it
is also one if it looks like an option that does not exist. Negative numbers, words with a
space, and everything after `--` are operands. A short option can carry its value, or
further short options, in the same word.

Options take effect in order, and the first that asks to leave, or that is wrong, ends the
reading. Words that fit nowhere are collected; it is for the caller to reject them.
-/

namespace IgnoreRules.CommandLine

inductive Exit
  | usage
  | help
  | version
  deriving DecidableEq, Repr

/-- An option that changes a state. Its value is empty if it takes none. -/
structure OptionSpec (α : Type) where
  names : List String
  takesValue : Bool
  apply : String → α → Except Exit α

namespace OptionSpec

def flag (names : List String) (apply : α → α) : OptionSpec α :=
  ⟨names, false, fun _ state => .ok (apply state)⟩

def value (names : List String) (apply : String → α → α) : OptionSpec α :=
  ⟨names, true, fun given state => .ok (apply given state)⟩

def leave (names : List String) (exit : Exit) : OptionSpec α :=
  ⟨names, false, fun _ _ => .error exit⟩

end OptionSpec

inductive Arity
  | atMostOne
  | atLeastOne
  /-- The first operand and every word after it, whatever it is. -/
  | everything
  deriving DecidableEq, Repr

/-- The words that a command line may hold. -/
structure Grammar (α : Type) where
  options : List (OptionSpec α)
  arity : Arity
  operands : List String → α → Except Exit α

/-- A text in the same word as an option, after `=` or directly after its name. -/
structure Attached where
  afterEquals : Bool
  text : List Char
  deriving DecidableEq, Repr

/-- A word and its part in the command line. -/
inductive Word (α : Type)
  | operand (text : List Char)
  | separator
  | option (spec : OptionSpec α) (name : List Char) (attached : Option Attached)
      (text : List Char)
  | unknownOption (text : List Char)

namespace Word

def written : Word α → List Char
  | .operand text => text
  | .separator => ['-', '-']
  | .option _ _ _ text => text
  | .unknownOption text => text

def isPlain : Word α → Bool
  | .operand _ | .separator => true
  | .option .. | .unknownOption _ => false

def texts (words : List (Word α)) : List String :=
  words.map fun word => String.ofList word.written

end Word

/-- Digits, or digits with a point among or before them. -/
def isDecimalNumber (text : List Char) : Bool :=
  let rest := text.dropWhile Text.isDecimal
  match rest with
  | [] => !text.isEmpty
  | '.' :: fraction => !fraction.isEmpty && fraction.all Text.isDecimal
  | _ => false

/-- A negative number, perhaps with a line feed at its end. -/
def isNegativeNumber : List Char → Bool
  | '-' :: size =>
    isDecimalNumber (if size.getLast? = some '\n' then size.dropLast else size)
  | _ => false

def cutAtEquals (text : List Char) : List Char × Option Attached :=
  (text.takeWhile (· != '='), (text.dropWhile (· != '=')).tail?.map (⟨true, ·⟩))

namespace Arity

/-- The operands at the start of words, and the words after them. -/
def take? : Arity → List (Word α) → Option (List String × List (Word α))
  | .atMostOne, words =>
    let rest := words.dropWhile fun word => word matches .separator
    match rest with
    | .operand text :: rest =>
      some ([String.ofList text], rest.dropWhile fun word => word matches .separator)
    | rest => some ([], rest)
  | .atLeastOne, words =>
    let run := words.takeWhile Word.isPlain
    let operands := run.filter fun word => !(word matches .separator)
    if operands.isEmpty then none else some (Word.texts operands, words.drop run.length)
  | .everything, words =>
    match words with
    | .operand _ :: _ | .separator :: .operand _ :: _ => some (Word.texts words, [])
    | _ => none

end Arity

namespace Grammar

variable {α : Type}

def find? (grammar : Grammar α) (name : List Char) : Option (OptionSpec α) :=
  grammar.options.find? fun spec => spec.names.contains (String.ofList name)

/-- The options, with their names, that have a name that starts with a text. -/
def startingWith (grammar : Grammar α) (text : List Char) : List (OptionSpec α × List Char) :=
  grammar.options.flatMap fun spec =>
    (spec.names.filter fun name => text.isPrefixOf name.toList).map fun name => (spec, name.toList)

/-- What a word is if it is no name and has none before a `=`: the beginning of a long name,
or a short option with what follows it. -/
def abbreviated (grammar : Grammar α) (text : List Char) : Except Exit (Option (Word α)) :=
  if ['-', '-'].isPrefixOf text then
    let (start, attached) := cutAtEquals text
    match grammar.startingWith start with
    | [] => .ok none
    | [(spec, name)] => .ok (some (.option spec name attached text))
    | _ => .error .usage
  else
    let name := text.take 2
    .ok ((grammar.find? name).map fun spec => .option spec name (some ⟨false, text.drop 2⟩) text)

/-- What a word is if it comes before any `--`. -/
def classify (grammar : Grammar α) (text : List Char) : Except Exit (Word α) := do
  if text.head? != some '-' then return .operand text
  match grammar.find? text with
  | some spec => return .option spec text none text
  | none =>
    if text = ['-'] then return .operand text
    let (name, attached) := cutAtEquals text
    match attached, grammar.find? name with
    | some value, some spec => return .option spec name (some value) text
    | _, _ =>
      match ← grammar.abbreviated text with
      | some word => return word
      | none =>
        if isNegativeNumber text || text.contains ' ' then return .operand text
        else return .unknownOption text

def words (grammar : Grammar α) : List (List Char) → Except Exit (List (Word α))
  | [] => .ok []
  | text :: rest => do
    if text = ['-', '-'] then return .separator :: rest.map .operand
    else return (← grammar.classify text) :: (← grammar.words rest)

/-- The options in one word: some without a value, then a last one with the text attached to
it, or what is no option. -/
structure Cluster (α : Type) where
  flags : List (OptionSpec α)
  last : OptionSpec α × Option (List Char) ⊕ List Char

/-- The options in a word in which a text is attached to an option. -/
def cluster (grammar : Grammar α) (spec : OptionSpec α) (short afterEquals : Bool)
    (text : List Char) : Except Exit (Cluster α) :=
  -- Only a short option without a value can be followed by others, and not after `=`.
  if spec.takesValue then .ok ⟨[], .inl (spec, some text)⟩
  else
    match text with
    | [] => .error .usage
    | c :: rest =>
      if !short || afterEquals || c = '-' then .error .usage
      else
        match grammar.find? ['-', c], rest with
        | none, rest => .ok ⟨[spec], .inr ('-' :: c :: rest)⟩
        | some next, [] => .ok ⟨[spec], .inl (next, none)⟩
        | some next, d :: more => do
          let found ← if d = '=' then grammar.cluster next true true more
            else grammar.cluster next true false (d :: more)
          return { found with flags := spec :: found.flags }

/-- The value that an option is given, by the text attached to it or by the next word, and
the words after that. -/
def given (spec : OptionSpec α) (attached : Option (List Char)) (rest : List (Word α)) :
    Except Exit (String × List (Word α)) :=
  if !spec.takesValue then .ok ("", rest)
  else
    match attached, rest with
    | some text, rest => .ok (String.ofList text, rest)
    | none, .operand text :: rest => .ok (String.ofList text, rest)
    | none, _ => .error .usage

/-- The state after an option, and the words after it. -/
def applyOption (grammar : Grammar α) (spec : OptionSpec α) (name : List Char)
    (attached : Option Attached) (rest : List (Word α)) (state : α) :
    Except Exit (α × List String × List (Word α)) := do
  -- What is no option becomes an unused word.
  let short := name.take 2 != ['-', '-']
  let found ← match attached with
    | none => pure ⟨[], .inl (spec, none)⟩
    | some attached => grammar.cluster spec short attached.afterEquals attached.text
  let applyFlags := found.flags.foldlM (fun state spec => spec.apply "" state) state
  match found.last with
  | .inl (last, attached) => do
    let (value, rest) ← given last attached rest
    return (← last.apply value (← applyFlags), [], rest)
  | .inr unknown => return (← applyFlags, [String.ofList unknown], rest)

/-- Read operands, if there are any still to be read. -/
def applyOperands (grammar : Grammar α) (pending : Bool) (words : List (Word α)) (state : α) :
    Except Exit (α × List (Word α)) :=
  if !pending then .ok (state, words)
  else
    match grammar.arity.take? words with
    | some (operands, rest) => do return (← grammar.operands operands state, rest)
    | none => .error .usage

/-- Read words, which are as many as the fuel at most. -/
def readWords (grammar : Grammar α) (pending : Bool) (state : α) (unused : List String) :
    Nat → List (Word α) → Except Exit (α × List String)
  -- Words that fit nowhere are added to those found so far.
  | 0, words => do
    let (state, rest) ← grammar.applyOperands pending words state
    return (state, unused ++ Word.texts rest)
  | fuel + 1, words => do
    if words.all Word.isPlain then
      let (state, rest) ← grammar.applyOperands pending words state
      return (state, unused ++ Word.texts rest)
    else match words with
      | .option spec name attached _ :: rest => do
        let (state, unknown, rest) ← grammar.applyOption spec name attached rest state
        grammar.readWords pending state (unused ++ unknown) fuel rest
      | .unknownOption text :: rest =>
        grammar.readWords pending state (unused ++ [String.ofList text]) fuel rest
      | words =>
        if pending then do
          let (state, rest) ← grammar.applyOperands true words state
          grammar.readWords false state unused fuel rest
        else
          let skipped := words.takeWhile Word.isPlain
          grammar.readWords false state (unused ++ Word.texts skipped) fuel
            (words.drop skipped.length)

/-- Read a command line. -/
def read (grammar : Grammar α) (start : α) (arguments : List String) :
    Except Exit (α × List String) := do
  -- The result is the state it leads to and the words that fit nowhere.
  let words ← grammar.words (arguments.map String.toList)
  grammar.readWords true start [] (words.length + 1) words

end Grammar
end IgnoreRules.CommandLine
