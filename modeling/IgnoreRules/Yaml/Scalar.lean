import IgnoreRules.Text.Surrogate
import IgnoreRules.Yaml.Cursor

/-!
# YAML scalars

Scalars are plain, quoted, or blocks. A line break inside a plain or quoted scalar is
folded: alone it becomes a space, and of several the first is dropped. A block keeps its
breaks or folds them, and its header says what becomes of the breaks at its end.
-/

namespace IgnoreRules.Yaml

open Scan

def isBlankInLine (c : Char) : Bool := c = ' ' || c = '\t'

/-- Where lines break inside a scalar, folded. -/
def foldBreaks (first : List Char) (more : List (List Char)) : List Char :=
  (if first != ['\n'] then first else if more.isEmpty then [' '] else []) ++ more.flatten

/-! ## Quoted scalars -/

def escapeChar? (c : Char) : Option Char :=
  [('0', '\x00'), ('a', '\x07'), ('b', '\x08'), ('t', '\t'), ('\t', '\t'), ('n', '\n'),
    ('v', '\x0b'), ('f', '\x0c'), ('r', '\r'), ('e', '\x1b'), (' ', ' '), ('"', '"'),
    ('\\', '\\'), ('/', '/'), ('N', '\x85'), ('_', '\xa0'), ('L', '\u2028'),
    ('P', '\u2029')].lookup c

/-- The number of hexadecimal digits after a letter that starts a numeric escape. -/
def escapeDigits? (c : Char) : Option Nat := [('x', 2), ('u', 4), ('U', 8)].lookup c

/-- Line breaks and the blanks around them. -/
def breaksInQuotes : Nat → Scan (List (List Char))
  -- A mark that separates documents must not follow a break.
  | 0 => fail
  | fuel + 1 => do
    if ← atSeparator then fail
    let _ ← takeWhile isBlankInLine
    if isBreak (← peek 0) then do
      let first ← lineBreak
      return first :: (← breaksInQuotes fuel)
    else return []

/-- The second half of a character, if its escape comes first in a text. -/
def lowHalf? : List Char → Option Nat
  | '\\' :: 'u' :: rest =>
    let digits := rest.take 4
    if digits.length = 4 then (Text.hexNumber? digits).filter Text.isLowSurrogate else none
  | _ => none

/-- Demand that a code is one that characters have. -/
def checkCode (code : Nat) : Scan Unit := do
  if 0x80000000 ≤ code then throw (.scalar .tooLarge)
  if 0x110000 ≤ code then throw (.scalar .noValue)

/-- The character of a code that was escaped. -/
def charOf (code : Nat) : Scan Char := do
  -- The halves of a character may be escaped one after the other; a half that stands alone is
  -- replaced.
  if Text.isHighSurrogate code then do
    match lowHalf? (← get).rest with
    | some low => do
      skip 6
      return Text.pairOf code low
    | none => return '\uFFFD'
  else if Text.isLowSurrogate code then return '\uFFFD'
  else return Char.ofNat code

/-- What an escape in double quotes stands for. -/
def escaped (fuel : Nat) : Scan (List Char) := do
  skip 1
  let c ← peek 0
  match escapeChar? c, escapeDigits? c with
  | some plain, _ => do
    skip 1
    return [plain]
  | none, some count => do
    skip 1
    let code ← hexNumber count
    checkCode code
    skip count
    return [← charOf code]
  | none, none => do
    if !isBreak c then fail
    let _ ← lineBreak
    return (← breaksInQuotes fuel).flatten

/-- A quoted scalar after its opening quote, up to the closing one. -/
def quotedRest (double : Bool) : Nat → Scan (List Char)
  | 0 => fail
  | fuel + 1 => do
    let c ← peek 0
    if c = endMark then fail
    else if c = (if double then '"' else '\'') then do
      if double then do
        skip 1
        return []
      else if (← peek 1) = '\'' then do
        skip 2
        return '\'' :: (← quotedRest double fuel)
      else do
        skip 1
        return []
    else if double && c = '\\' then do
      let text ← escaped fuel
      return text ++ (← quotedRest double fuel)
    else if isBlankInLine c || isBreak c then do
      let blanks ← takeWhile isBlankInLine
      if isBreak (← peek 0) then do
        let first ← lineBreak
        let more ← breaksInQuotes fuel
        return foldBreaks first more ++ (← quotedRest double fuel)
      else return blanks ++ (← quotedRest double fuel)
    else do
      skip 1
      return c :: (← quotedRest double fuel)

def quotedScalar : Scan (List Char) := do
  let double := (← peek 0) = '"'
  skip 1
  quotedRest double (2 * (← get).remaining + 1)

/-! ## Plain scalars -/

/-- The length of a word of a plain scalar. -/
def plainLength (inFlow : Bool) : List Char → Nat
  -- In a flow collection its punctuation ends the word.
  | [] => 0
  | c :: rest =>
    let following := rest.head?.getD endMark
    if isBlankOrEnd c then 0
    else if c = ':' && (isBlankOrEnd following ||
        (inFlow && ",[]\x7b\x7d".toList.contains following)) then 0
    else if inFlow && ",?[]\x7b\x7d".toList.contains c then 0
    else 1 + plainLength inFlow rest

/-- Further line breaks after a word, and the spaces around them. -/
def breaksInPlain : Nat → Scan (Option (List (List Char)))
  -- The result is none at a mark that separates documents.
  | 0 => fail
  | fuel + 1 => do
    let c ← peek 0
    if c = ' ' then do
      skip 1
      breaksInPlain fuel
    else if isBreak c then do
      let first ← lineBreak
      if ← atSeparator then return none
      return (← breaksInPlain fuel).map (first :: ·)
    else return some []

/-- What separates two words of a plain scalar, and whether a line was broken. -/
def plainSpaces (fuel : Nat) : Scan (List Char × Bool) := do
  -- Nothing separates them at the end of the scalar.
  let spaces ← takeWhile (· = ' ')
  if isBreak (← peek 0) then do
    let first ← lineBreak
    if ← atSeparator then return ([], true)
    match ← breaksInPlain fuel with
    | none => return ([], true)
    | some more => return (foldBreaks first more, true)
  else return (spaces, false)

/-- The words of a plain scalar and whether its end is at the start of a line. -/
def plainWords (inFlow : Bool) (indent : Int) (separator : List Char) (broken : Bool) :
    Nat → Scan (List Char × Bool)
  -- In block context lines must be indented by at least `indent`.
  | 0 => fail
  | fuel + 1 => do
    if (← peek 0) = '#' then return ([], broken)
    let length := plainLength inFlow (← get).rest
    if (← peek length) = ':' then
      let _ ← peek (length + 1)
    if length = 0 then return ([], broken)
    let word ← ahead length
    skip length
    let (spaces, broken) ← plainSpaces (fuel + 1)
    let text := separator ++ word
    let column := (← get).column
    if spaces.isEmpty || (← peek 0) = '#' || (!inFlow && (column : Int) < indent) then
      return (text, broken)
    let (more, broken) ← plainWords inFlow indent spaces broken fuel
    return (text ++ more, broken)

/-- A plain scalar, and whether it ends at the start of a line. -/
def plainScalar (inFlow : Bool) (indent : Int) : Scan (List Char × Bool) := do
  plainWords inFlow indent [] false ((← get).remaining + 1)

/-! ## Blocks -/

/-- What becomes of the line breaks at the end of a block. -/
inductive Chomping
  | clip
  | strip
  | keep
  deriving DecidableEq, Repr

/-- How a character in the header of a block chomps it. -/
def chomping? (c : Char) : Option Chomping :=
  if c = '+' then some .keep else if c = '-' then some .strip else none

/-- The indentation that a digit in the header of a block gives; it is not zero. -/
def indentDigit : Scan (Option Nat) := do
  let c ← peek 0
  if c.isDigit then do
    if c = '0' then fail
    skip 1
    return some (c.toNat - '0'.toNat)
  else return none

/-- The header of a block: chomping and indentation, in either order. -/
def blockHeader : Scan (Chomping × Option Nat) := do
  match chomping? (← peek 0) with
  | some chomping => do
    skip 1
    let indent ← indentDigit
    expect isSpaceOrEnd
    return (chomping, indent)
  | none => do
    let indent ← indentDigit
    let c ← peek 0
    let chomping := if indent.isSome then chomping? c else none
    if chomping.isSome then skip 1
    expect isSpaceOrEnd
    return (chomping.getD .clip, indent)

/-- Empty lines before the first line of a block, and the widest indentation seen. -/
def leadingLines (widest : Nat) : Nat → Scan (List (List Char) × Nat)
  | 0 => fail
  | fuel + 1 => do
    let c ← peek 0
    if c = ' ' then do
      skip 1
      leadingLines (max widest (← get).column) fuel
    else if isBreak c then do
      let first ← lineBreak
      let (more, widest) ← leadingLines widest fuel
      return (first :: more, widest)
    else return ([], widest)

/-- Go on over spaces, up to a column. -/
def skipIndent (indent : Nat) : Scan Unit := do
  let cursor ← get
  let spaces := (cursor.rest.takeWhile (· = ' ')).length
  skip (min spaces (indent - cursor.column))

/-- Empty lines of a block, and the indentation of the line after them. -/
def emptyLines (indent : Nat) : Nat → Scan (List (List Char))
  | 0 => fail
  | fuel + 1 => do
    skipIndent indent
    if isBreak (← peek 0) then do
      let first ← lineBreak
      return first :: (← emptyLines indent fuel)
    else return []

/-- A line of a block goes on here. -/
def isInside (indent : Nat) : Scan Bool := do
  if (← get).column = indent then return (← peek 0) != endMark
  else return false

/-- What joins a line to the next one that is not empty: the break between them, which a
folded block drops between lines that start with no blank, and replaces by a space if no
empty lines stand between. -/
def blockJoint (folded startsBlank : Bool) (ending : List Char) (adjacent : Bool) :
    Scan (List Char) := do
  if folded && ending = ['\n'] && !startsBlank && !isBlankInLine (← peek 0) then
    return if adjacent then [' '] else []
  else return ending

/-- The lines of a block. -/
def blockLines (folded : Bool) (indent : Nat) (breaks : List (List Char))
    (lastBreak : List Char) : Nat → Scan (List Char × List Char × List (List Char))
  -- The result is its text, the break after its last line, and the empty lines that follow.
  | 0 => fail
  | fuel + 1 => do
    if !(← isInside indent) then return ([], lastBreak, breaks)
    let startsBlank := isBlankInLine (← peek 0)
    let line ← takeWhile fun c => !isLineEnd c
    let ending ← lineBreak
    let following ← emptyLines indent (fuel + 1)
    let text := breaks.flatten ++ line
    if !(← isInside indent) then return (text, ending, following)
    let joint ← blockJoint folded startsBlank ending following.isEmpty
    let (more, lastBreak, following) ← blockLines folded indent following ending fuel
    return (text ++ joint ++ more, lastBreak, following)

/-- A block, in a collection of a given indentation. -/
def blockScalar (indent : Int) : Scan (List Char) := do
  let folded := (← peek 0) = '>'
  skip 1
  let (chomping, increment) ← blockHeader
  restOfLine
  let least := (max (indent + 1) 1).toNat
  let fuel := (← get).remaining + 1
  let (breaks, indent) ← match increment with
    | none => do
      let (breaks, widest) ← leadingLines 0 fuel
      pure (breaks, max least widest)
    | some increment => do
      let indent := least + increment - 1
      pure (← emptyLines indent fuel, indent)
  let (text, lastBreak, following) ← blockLines folded indent breaks [] fuel
  match chomping with
  | .strip => return text
  | .clip => return text ++ lastBreak
  | .keep => return text ++ lastBreak ++ following.flatten

end IgnoreRules.Yaml
