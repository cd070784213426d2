import IgnoreRules.Number.Notation
import IgnoreRules.Yaml.Cursor

/-!
# YAML tokens

The tokens of a document, and those of them that are one word: directives, anchors,
aliases and tags.
-/

namespace IgnoreRules.Yaml

inductive Token
  | versionDirective (major : Nat)
  | tagDirective (handle lead : List Char)
  | otherDirective
  | documentStart
  | documentEnd
  | blockSequenceStart
  | blockMappingStart
  | blockEnd
  | flowSequenceStart
  | flowSequenceEnd
  | flowMappingStart
  | flowMappingEnd
  | blockItem
  | flowItem
  | key
  | value
  | alias (name : List Char)
  | anchor (name : List Char)
  | tag (handle : Option (List Char)) (suffix : List Char)
  | scalar (text : List Char) (plain : Bool)
  deriving DecidableEq, Repr

/-- The tokens of a text, as far as they are sure. -/
structure TokenList where
  tokens : List Token
  /-- What is wrong with the text after them, if anything is. -/
  ending : Option Error

namespace Token

open Scan

/-- One or more characters of a word. -/
def word : Scan (List Char) := do
  let name ← takeWhile isWordChar
  if name.isEmpty then fail
  return name

/-- The name after `*` or `&`. -/
def anchorName : Scan (List Char) := do
  skip 1
  let name ← word
  expect fun c => isBlankOrEnd c || "?:,]\x7d%@`".toList.contains c
  return name

/-- A tag handle: `!`, `!!` or a word between two of them. -/
def tagHandle : Scan (List Char) := do
  expect (· = '!')
  if (← peek 1) = ' ' then
    skip 1
    return ['!']
  else
    skip 1
    let name ← takeWhile isWordChar
    expect (· = '!')
    skip 1
    return '!' :: name ++ ['!']

/-- A character of a tag's URI that stands for itself. -/
def isUriChar (c : Char) : Bool := c.isAlphanum || "-;/?:@&=+$,_.!~*'()[]".toList.contains c

/-- Bytes in a URI, each as `%` and two hexadecimal digits. -/
def uriBytes : Nat → Scan (List UInt8)
  | 0 => fail
  | fuel + 1 => do
    if (← peek 0) = '%' then do
      skip 1
      let byte ← hexNumber 2
      skip 2
      return byte.toUInt8 :: (← uriBytes fuel)
    else return []

/-- The rest of a tag's URI. Bytes that are escaped one after the other are text in UTF-8. -/
def uriRest : Nat → Scan (List Char)
  | 0 => fail
  | fuel + 1 => do
    let plain ← takeWhile isUriChar
    if (← peek 0) = '%' then do
      let bytes ← uriBytes (fuel + 1)
      match String.fromUTF8? (ByteArray.mk bytes.toArray) with
      | none => fail
      | some text => return plain ++ text.toList ++ (← uriRest fuel)
    else return plain

def tagUri : Scan (List Char) := do
  let uri ← uriRest ((← get).remaining + 1)
  if uri.isEmpty then fail
  return uri

/-- The tag that starts here carries a handle, for a second `!` occurs in it. -/
def hasHandle : Scan Bool := do
  let word := ((← get).rest.drop 1).takeWhile fun c => !isSpaceOrEnd c && c != '!'
  return (← peek (word.length + 1)) = '!'

def tagBody : Scan Token := do
  let c ← peek 1
  if c = '<' then do
    skip 2
    let uri ← tagUri
    expect (· = '>')
    skip 1
    return .tag none uri
  else if isBlankOrEnd c then do
    skip 1
    return .tag none ['!']
  else if ← hasHandle then do
    let handle ← tagHandle
    return .tag (some handle) (← tagUri)
  else do
    skip 1
    return .tag (some ['!']) (← tagUri)

/-- A tag. -/
def readTag : Scan Token := do
  -- A space or the end of the line follows it.
  let token ← tagBody
  expect isSpaceOrEnd
  return token

def versionNumber : Scan Nat := do
  let digits ← takeWhile Char.isDigit
  if digits.isEmpty then fail
  match Number.readInt? digits with
  | some number => return number.toNat
  | none => throw (.scalar .noValue)

/-- The version that a directive declares. -/
def versionValue : Scan Token := do
  let _ ← takeWhile (· = ' ')
  let major ← versionNumber
  expect (· = '.')
  skip 1
  let _ ← versionNumber
  expect isSpaceOrEnd
  return .versionDirective major

/-- The handle that a directive declares, and what it stands for. -/
def tagValue : Scan Token := do
  let _ ← takeWhile (· = ' ')
  let handle ← tagHandle
  expect (· = ' ')
  let _ ← takeWhile (· = ' ')
  let lead ← tagUri
  expect isSpaceOrEnd
  return .tagDirective handle lead

/-- A directive, with the rest of its line. -/
def readDirective : Scan Token := do
  skip 1
  let name ← word
  expect isSpaceOrEnd
  let token ←
    if name = ['Y', 'A', 'M', 'L'] then versionValue
    else if name = ['T', 'A', 'G'] then tagValue
    else do
      let _ ← takeWhile fun c => !isLineEnd c
      pure .otherDirective
  restOfLine
  return token

end Token
end IgnoreRules.Yaml
