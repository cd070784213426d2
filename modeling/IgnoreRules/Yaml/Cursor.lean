import IgnoreRules.Text.Hex
import IgnoreRules.Yaml.Error

/-!
# A place in a document

A cursor is what remains of a document, with the line and column reached. The end of the
document reads as NUL, which no document holds.

A text may break off where its file cannot be read further. Whatever asks for a character
beyond that place then fails, and whatever does not goes on undisturbed.
-/

namespace IgnoreRules.Yaml

/-- A text that may break off. -/
structure Input where
  text : List Char
  /-- Why the text goes no further, unless it is complete. -/
  ending : Option Error

/-- A character that may stand in a document. -/
def isAllowed (c : Char) : Bool :=
  c = '\t' || c = '\n' || c = '\r' || c = '\x85' || (' ' ≤ c && c ≤ '~') ||
    ('\xa0' ≤ c && c != '\ufffe' && c != '\uffff')

/-- The text that portions make up. -/
def Input.ofPortions (portions : List (List Char)) (ending : Option Error) : Input :=
  -- It breaks off in front of a portion with a character that may not stand in a document, or
  -- after all portions for another reason.
  match portions with
  | [] => ⟨[], ending⟩
  | portion :: others =>
    if portion.all isAllowed then
      let rest := Input.ofPortions others ending
      ⟨portion ++ rest.text, rest.ending⟩
    else ⟨[], some .malformed⟩

/-- A place in a document. -/
structure Cursor where
  rest : List Char
  /-- Why the text goes no further, unless it is complete. -/
  ending : Option Error
  /-- The number of characters in the whole text. -/
  size : Nat
  index : Nat
  line : Nat
  column : Nat

/-- Stands for the end of the document. -/
def endMark : Char := '\x00'

def isBreak (c : Char) : Bool :=
  c = '\r' || c = '\n' || c = '\x85' || c = '\u2028' || c = '\u2029'

def isLineEnd (c : Char) : Bool := isBreak c || c = endMark

def isSpaceOrEnd (c : Char) : Bool := c = ' ' || isLineEnd c

def isBlankOrEnd (c : Char) : Bool := c = '\t' || isSpaceOrEnd c

/-- A character of names, handles and anchors. -/
def isWordChar (c : Char) : Bool := c.isAlphanum || c = '-' || c = '_'

namespace Cursor

def start (input : Input) : Cursor := ⟨input.text, input.ending, input.text.length, 0, 0, 0⟩

def remaining (cursor : Cursor) : Nat := cursor.size - cursor.index

/-- Go on by one character. -/
def next (cursor : Cursor) : Cursor :=
  -- A byte order mark has no width, and a carriage return breaks the line unless a line feed
  -- follows.
  match cursor.rest with
  | [] => cursor
  | c :: rest =>
    let index := cursor.index + 1
    if (isBreak c && c != '\r') || (c = '\r' && rest.head? != some '\n') then
      { cursor with rest, index, line := cursor.line + 1, column := 0 }
    else if c = '\uFEFF' then { cursor with rest, index }
    else { cursor with rest, index, column := cursor.column + 1 }

def skip (cursor : Cursor) : Nat → Cursor
  | 0 => cursor
  | count + 1 => cursor.next.skip count

end Cursor

/-- Reads from a place in a document. -/
abbrev Scan := StateT Cursor (Except Error)

namespace Scan

/-- The character some places further on. -/
def peek (ahead : Nat) : Scan Char := do
  let cursor ← get
  match cursor.rest[ahead]?, cursor.ending with
  | some c, _ => return c
  | none, none => return endMark
  | none, some problem => throw problem

/-- The next characters. -/
def ahead (count : Nat) : Scan (List Char) := do
  -- There are fewer of them only at the end of the document.
  let cursor ← get
  match cursor.ending with
  | none => return cursor.rest.take count
  | some problem =>
    if cursor.rest.length < count then throw problem
    return cursor.rest.take count

/-- Go on by some characters, behind which there has to be another one or the end. -/
def skip (count : Nat) : Scan Unit := do
  let _ ← peek count
  modify (·.skip count)

/-- The text has not the form of a document. -/
def fail : Scan α := throw .malformed

/-- Go on as long as characters satisfy a test, and return them. -/
def takeWhile (test : Char → Bool) : Scan (List Char) := do
  let taken := (← get).rest.takeWhile test
  skip taken.length
  return taken

def expectAt (ahead : Nat) (test : Char → Bool) : Scan Unit := do
  if !test (← peek ahead) then fail

def expect (test : Char → Bool) : Scan Unit := expectAt 0 test

/-- A mark that separates documents, `---` or `...`, stands here. -/
def atSeparator : Scan Bool := do
  let mark ← ahead 3
  if mark = ['-', '-', '-'] || mark = ['.', '.', '.'] then return isBlankOrEnd (← peek 3)
  else return false

/-- Read a line break, if one stands here. -/
def lineBreak : Scan (List Char) := do
  -- A separator of lines or paragraphs is kept, any other break becomes a line feed.
  let c ← peek 0
  if !isBreak c then return []
  else if c = '\r' then do
    let following ← peek 1
    skip (if following = '\n' then 2 else 1)
    return ['\n']
  else do
    skip 1
    return if c = '\u2028' || c = '\u2029' then [c] else ['\n']

/-- The number that some hexadecimal digits write. -/
def hexNumber (count : Nat) : Scan Nat := do
  (List.range count).forM fun place => expectAt place fun c => (Text.hexValue? c).isSome
  return (Text.hexNumber? (← ahead count)).getD 0

/-- Read spaces, a comment if there is one, and the end of the line. -/
def restOfLine : Scan Unit := do
  let _ ← takeWhile (· = ' ')
  if (← peek 0) = '#' then
    let _ ← takeWhile fun c => !isLineEnd c
  expect isLineEnd
  let _ ← lineBreak

end Scan
end IgnoreRules.Yaml
