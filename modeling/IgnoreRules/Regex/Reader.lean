import IgnoreRules.Regex.Basic
import IgnoreRules.Regex.ClassSyntax

/-!
# Reading a regular expression

A source is cut into tokens, and the tokens are folded over a stack of open groups. Both
passes go through their input once, so reading a concatenation is reading its parts one
after the other from the state the first part leaves.

A bracket expression ends at the first `]` that is neither escaped nor its first member:
in `[]a]` and `[^]a]` the first `]` belongs to the class.
-/

namespace IgnoreRules.Regex

/-- What the reader sees of a source. -/
inductive Token
  | openGroup
  | closeGroup
  | bar
  | star
  | plus
  | piece (regex : Regex)
  deriving DecidableEq, Repr

namespace Token

/-- The token of a character outside bracket expressions, where it needs no look-ahead. -/
def ofChar (c : Char) : Except SyntaxError Token :=
  match c with
  | ')' => .ok .closeGroup
  | '|' => .ok .bar
  | '*' => .ok .star
  | '+' => .ok .plus
  | '.' => .ok (.piece (.one .anyInLine))
  | '^' => .ok (.piece .atStart)
  | '$' => .ok (.piece .atEnd)
  | '\\' => .error .trailingBackslash
  | '(' => .error (.unsupported '(')
  | '?' => .error (.unsupported '?')
  | '{' => .error (.unsupported '{')
  | c => .ok (.piece (.one (.single c)))

/-- The token of an escaped character outside bracket expressions: letters and digits are
reserved, everything else stands for itself. -/
def ofEscape (c : Char) : Except SyntaxError Token :=
  if c.isAlphanum then .error (.badEscape c) else .ok (.piece (.one (.single c)))

/-- The tokens of a source. -/
def scan [Text.CharacterNames] : Option (List Char) → List Char → Except SyntaxError (List Token)
  -- Inside a bracket expression the contents read so far are kept in reverse.
  | none, [] => .ok []
  | none, '\\' :: c :: rest => do return (← ofEscape c) :: (← scan none rest)
  | none, '(' :: '?' :: ':' :: rest => do return .openGroup :: (← scan none rest)
  | none, '(' :: '?' :: '!' :: ')' :: rest => do return .piece .never :: (← scan none rest)
  | none, '[' :: '^' :: ']' :: rest => scan (some [']', '^']) rest
  | none, '[' :: '^' :: rest => scan (some ['^']) rest
  | none, '[' :: ']' :: rest => scan (some [']']) rest
  | none, '[' :: rest => scan (some []) rest
  | none, c :: rest => do return (← ofChar c) :: (← scan none rest)
  | some _, [] => .error .unclosedClass
  | some contents, '\\' :: c :: rest => scan (some (c :: '\\' :: contents)) rest
  | some contents, ']' :: rest => do
    let set ← CharClass.read contents.reverse
    return .piece (.one set) :: (← scan none rest)
  | some contents, c :: rest => scan (some (c :: contents)) rest

end Token

/-- A group under construction: the finished branches and the pieces of the current one,
both in reverse. -/
structure Group where
  branches : List Regex
  pieces : List Regex
  deriving DecidableEq, Repr

namespace Group

def fresh : Group := ⟨[], []⟩

def push (group : Group) (piece : Regex) : Group :=
  { group with pieces := piece :: group.pieces }

def split (group : Group) : Group :=
  ⟨sequence group.pieces.reverse :: group.branches, []⟩

/-- The expression that a finished group stands for. -/
def close (group : Group) : Regex := choice group.split.branches.reverse

end Group

/-- The group being read and the groups around it, innermost first. -/
structure Reading where
  current : Group
  outer : List Group
  deriving DecidableEq, Repr

namespace Reading

def fresh : Reading := ⟨.fresh, []⟩

def step (state : Reading) : Token → Except SyntaxError Reading
  | .openGroup => .ok ⟨.fresh, state.current :: state.outer⟩
  | .closeGroup =>
    match state.outer with
    | [] => .error .unopenedGroup
    | parent :: outer => .ok ⟨parent.push state.current.close, outer⟩
  | .bar => .ok { state with current := state.current.split }
  | .star =>
    match state.current.pieces with
    | .one set :: pieces => .ok { state with current.pieces := .many set :: pieces }
    | _ => .error .nothingToRepeat
  | .plus =>
    match state.current.pieces with
    | .one set :: pieces =>
      .ok { state with current.pieces := .seq (.one set) (.many set) :: pieces }
    | _ => .error .nothingToRepeat
  | .piece regex => .ok { state with current := state.current.push regex }

/-- The expression read, once every group is closed. -/
def finish (state : Reading) : Except SyntaxError Regex :=
  match state.outer with
  | [] => .ok state.current.close
  | _ :: _ => .error .unclosedGroup

end Reading

/-- The expression that a source denotes. -/
def read [Text.CharacterNames] (source : List Char) : Except SyntaxError Regex := do
  let tokens ← Token.scan none source
  (← tokens.foldlM Reading.step .fresh).finish

end IgnoreRules.Regex
