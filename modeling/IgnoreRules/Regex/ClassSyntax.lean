import IgnoreRules.Regex.CharClass
import IgnoreRules.Text.CharacterNames
import IgnoreRules.Text.Hex

/-!
# The contents of a bracket expression

Between the brackets, a leading `^` negates, a hyphen between two characters makes a
range, and a backslash starts an escape: `\d`, `\w`, `\s` and their capitals name a
family, `\xHH`, `\uHHHH` and `\UHHHHHHHH` name a code point, up to three octal digits name
one below 256, `\N` with the name of a character in braces names that character,
`\a \b \f \n \r \t \v` name control characters, and any other ASCII letter or digit is an
error. Everything else stands for itself.

Reading goes in two steps, from characters to `ClassAtom`s and from those to items. One kind
of error is told from the others: a `\U` with a number of more than 31 bits, if nothing is
wrong before it. Such a number ends the first step, and is met in its turn in the second.
-/

namespace IgnoreRules.Regex

inductive SyntaxError
  | unclosedClass
  /-- A range runs backwards or is bounded by a family. -/
  | badRange
  | badEscape (escaped : Char)
  /-- No character has the name. -/
  | unknownName (name : List Char)
  | unclosedName
  /-- An escape holds a number of more than 31 bits. -/
  | codeTooLarge
  | trailingBackslash
  /-- A repeat does not follow a single character or class. -/
  | nothingToRepeat
  | unclosedGroup
  | unopenedGroup
  /-- A construct outside the dialect. -/
  | unsupported (c : Char)
  deriving DecidableEq, Repr

def SyntaxError.message : SyntaxError → String
  | .unclosedClass => "unclosed bracket expression"
  | .badRange => "bad character range"
  | .badEscape c => "bad escape " ++ String.ofList ['\\', c]
  | .unknownName name => "undefined character name " ++ String.ofList name
  | .unclosedName => "unclosed character name"
  | .codeTooLarge => "character code too large"
  | .trailingBackslash => "backslash at the end"
  | .nothingToRepeat => "nothing to repeat"
  | .unclosedGroup => "unclosed group"
  | .unopenedGroup => "unopened group"
  | .unsupported c => "unsupported " ++ String.ofList [c]

/-- An element of a bracket expression, before hyphens are given their meaning. -/
inductive ClassAtom
  /-- A code point, or a number too large for one. -/
  | point (code : Nat)
  | hyphen
  | families (item : ClassItem)
  deriving DecidableEq, Repr

def octalValue? (c : Char) : Option Nat :=
  if '0' ≤ c ∧ c ≤ '7' then some (c.toNat - '0'.toNat) else none

namespace ClassAtom

/-- The smallest number that does not fit 31 bits. -/
def codeLimit : Nat := 0x80000000

def tooLarge : ClassAtom → Bool
  | .point code => codeLimit ≤ code
  | _ => false

/-- The code point that hexadecimal digits name; the letter before them is to blame if
they name none. -/
def ofHex (letter : Char) (digits : List Char) : Except SyntaxError ClassAtom :=
  match Text.hexNumber? digits with
  | some code =>
    if code < 0x110000 ∨ codeLimit ≤ code then .ok (.point code) else .error (.badEscape letter)
  | none => .error (.badEscape letter)

/-- The code point that an octal number names. -/
def ofOctal (leading : Char) (code : Nat) : Except SyntaxError ClassAtom :=
  if code ≤ 0o377 then .ok (.point code) else .error (.badEscape leading)

/-- The meaning of an escape without digits. -/
def ofEscape (c : Char) : Except SyntaxError ClassAtom :=
  match c with
  | 'd' => .ok (.families (.family .digit))
  | 'D' => .ok (.families (.outside .digit))
  | 'w' => .ok (.families (.family .word))
  | 'W' => .ok (.families (.outside .word))
  | 's' => .ok (.families (.family .blank))
  | 'S' => .ok (.families (.outside .blank))
  | 'a' => .ok (.point 7)
  | 'b' => .ok (.point 8)
  | 't' => .ok (.point 9)
  | 'n' => .ok (.point 10)
  | 'v' => .ok (.point 11)
  | 'f' => .ok (.point 12)
  | 'r' => .ok (.point 13)
  | c => if c.isAlphanum then .error (.badEscape c) else .ok (.point c.toNat)

section Reading

variable [Text.CharacterNames]

/-- The character that a name stands for. -/
def ofName (name : List Char) : Except SyntaxError ClassAtom :=
  match Text.CharacterNames.named? name with
  -- There is no character without a name, whatever the table says.
  | some c => if name = [] then .error (.unknownName name) else .ok (.point c.toNat)
  | none => .error (.unknownName name)

/-- The elements of the rest of a bracket expression. -/
def scan : Option (List Char) → List Char → Except SyntaxError (List ClassAtom)
  -- Inside a name the characters read so far are kept in reverse.
  | none, [] => .ok []
  | none, ['\\'] => .error .trailingBackslash
  | none, '\\' :: 'x' :: a :: b :: rest => do
    return (← ofHex 'x' [a, b]) :: (← scan none rest)
  | none, '\\' :: 'u' :: a :: b :: c :: d :: rest => do
    return (← ofHex 'u' [a, b, c, d]) :: (← scan none rest)
  | none, '\\' :: 'U' :: a :: b :: c :: d :: e :: f :: g :: h :: rest => do
    let atom ← ofHex 'U' [a, b, c, d, e, f, g, h]
    -- What follows a number that is too large is not looked at.
    if atom.tooLarge then return [atom] else return atom :: (← scan none rest)
  | none, '\\' :: 'N' :: '\x7b' :: rest => scan (some []) rest
  | none, '\\' :: a :: rest =>
    -- An octal number ends with its third digit or before the first character that is no octal
    -- digit.
    match octalValue? a with
    | none => do return (← ofEscape a) :: (← scan none rest)
    | some x =>
      match rest with
      | [] => do return [← ofOctal a x]
      | b :: rest =>
        match octalValue? b with
        | none => do return (← ofOctal a x) :: (← scan none (b :: rest))
        | some y =>
          match rest with
          | [] => do return [← ofOctal a (8 * x + y)]
          | c :: rest =>
            match octalValue? c with
            | none => do return (← ofOctal a (8 * x + y)) :: (← scan none (c :: rest))
            | some z => do return (← ofOctal a (64 * x + 8 * y + z)) :: (← scan none rest)
  | none, '-' :: rest => do return .hyphen :: (← scan none rest)
  | none, c :: rest => do return .point c.toNat :: (← scan none rest)
  | some _, [] => .error .unclosedName
  | some name, '\x7d' :: rest => do return (← ofName name.reverse) :: (← scan none rest)
  | some name, c :: rest => scan (some (c :: name)) rest

/-- The elements of a bracket expression. -/
def read (contents : List Char) : Except SyntaxError (List ClassAtom) := scan none contents

end Reading

/-- The code point at an end of a range; families have none. -/
def bound? : ClassAtom → Option Nat
  | .point code => some code
  | .hyphen => some '-'.toNat
  | .families _ => none

def toItem : ClassAtom → ClassItem
  | .point code => .range code code
  | .hyphen => .range '-'.toNat '-'.toNat
  | .families item => item

/-- Items of a bracket expression: a hyphen that is neither first nor last joins its
neighbours to a range. -/
def items : List ClassAtom → Except SyntaxError (List ClassItem)
  | first :: .hyphen :: last :: rest =>
    if first.tooLarge || last.tooLarge then .error .codeTooLarge else
    match first.bound?, last.bound? with
    | some low, some high =>
      if low ≤ high then do return .range low high :: (← items rest) else .error .badRange
    | _, _ => .error .badRange
  | atom :: rest =>
    if atom.tooLarge then .error .codeTooLarge else do return atom.toItem :: (← items rest)
  | [] => .ok []

end ClassAtom

/-- The class written between two brackets. -/
def CharClass.read [Text.CharacterNames] : List Char → Except SyntaxError CharClass
  | '^' :: contents => do return ⟨true, ← ClassAtom.items (← ClassAtom.read contents)⟩
  | contents => do return ⟨false, ← ClassAtom.items (← ClassAtom.read contents)⟩

end IgnoreRules.Regex
