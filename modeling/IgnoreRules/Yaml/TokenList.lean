import IgnoreRules.Yaml.Scalar
import IgnoreRules.Yaml.Token

/-!
# Cutting a document into tokens

Indentation opens and closes block collections, and a word becomes a key when a `:` follows
it on the same line, at most 1024 characters further on. Until then the place of the word
is remembered, one for every flow collection that is open, so that the token that marks a
key can be put in front of it.

Where the text has a fault, the tokens before it are kept as far as they are sure: up to
the first word that could still turn out to be a key.
-/

namespace IgnoreRules.Yaml

/-- A word that may turn out to be a key. -/
structure PossibleKey where
  /-- The number of tokens before the word. -/
  position : Nat
  /-- The block mapping is broken if the word is no key. -/
  required : Bool
  index : Nat
  line : Nat
  column : Nat

/-- The tokens so far and what the next one depends on. -/
structure Tokenizer where
  cursor : Cursor
  /-- The tokens so far, the last one first. -/
  tokens : List Token
  count : Nat
  flowLevel : Nat
  /-- The indentation of the innermost block collection. -/
  indent : Int
  /-- The indentations of those around it, innermost first. -/
  outerIndents : List Int
  allowKey : Bool
  /-- The possible keys by flow level, the innermost first. -/
  keys : List (Nat × PossibleKey)

abbrev Tokenize := StateT Tokenizer (Except Error)

namespace Tokenize

/-- Before the first token. -/
def start (input : Input) : Tokenizer where
  -- A byte order mark at the start of a text is passed over.
  cursor :=
    let cursor := Cursor.start input
    if input.text.head? = some '\uFEFF' then cursor.next else cursor
  tokens := []
  count := 0
  flowLevel := 0
  indent := -1
  outerIndents := []
  allowKey := true
  keys := []

def scan (reader : Scan α) : Tokenize α := do
  let state ← get
  match reader.run state.cursor with
  | .ok (result, cursor) =>
    set { state with cursor }
    return result
  | .error problem => throw problem

def push (token : Token) : Tokenize Unit :=
  modify fun state => { state with tokens := token :: state.tokens, count := state.count + 1 }

/-- Put a token behind the first ones, whose number is given. -/
def insertAt (position : Nat) (token : Token) : Tokenize Unit :=
  modify fun state =>
    let (later, first) := state.tokens.splitAt (state.count - position)
    { state with tokens := later ++ token :: first, count := state.count + 1 }

/-- Say whether a key may start here. -/
def allowKey (allowed : Bool) : Tokenize Unit :=
  modify fun state => { state with allowKey := allowed }

/-- No flow collection is open. -/
def inBlock : Tokenize Bool := do return (← get).flowLevel = 0

/-- A `:` would come too late for a possible key. -/
def isLate (cursor : Cursor) (key : PossibleKey) : Bool :=
  key.line != cursor.line || 1024 < cursor.index - key.index

/-- Forget the possible keys that a `:` comes too late for. -/
def dropLateKeys : Tokenize Unit := do
  -- If there are any, it comes too late for the first one.
  let state ← get
  match state.keys.getLast? with
  | none => pure ()
  | some (_, first) =>
    if isLate state.cursor first then
      let (late, kept) := state.keys.partition fun entry => isLate state.cursor entry.2
      if late.any (·.2.required) then throw .malformed
      set { state with keys := kept }

/-- The possible key of the innermost collection, and those of the collections around it. -/
def innermostKey? (state : Tokenizer) : Option (PossibleKey × List (Nat × PossibleKey)) :=
  match state.keys with
  | [] => none
  | (level, key) :: others => if level = state.flowLevel then some (key, others) else none

def dropKey : Tokenize Unit := do
  let state ← get
  match innermostKey? state with
  | none => pure ()
  | some (key, others) =>
    if key.required then throw .malformed
    set { state with keys := others }

/-- Remember that the next token may be a key. -/
def saveKey : Tokenize Unit := do
  let state ← get
  if state.allowKey then
    let cursor := state.cursor
    let required := state.flowLevel = 0 && state.indent = cursor.column
    let key : PossibleKey := ⟨state.count, required, cursor.index, cursor.line, cursor.column⟩
    dropKey
    modify fun state => { state with keys := (state.flowLevel, key) :: state.keys }

/-- The innermost of the outer indentations that are not beyond a column, those further out,
and how many collections end. -/
def closeIndents (column : Int) : Int → List Int → Int × List Int × Nat
  | indent, [] => (indent, [], 0)
  | indent, outer :: further =>
    if column < indent then
      let (indent, rest, count) := closeIndents column outer further
      (indent, rest, count + 1)
    else (indent, outer :: further, 0)

/-- End the block collections that are indented beyond a column. -/
def unwind (column : Int) : Tokenize Unit := do
  if ← inBlock then
    modify fun state =>
      let (indent, outerIndents, count) := closeIndents column state.indent state.outerIndents
      { state with
        indent, outerIndents
        tokens := List.replicate count Token.blockEnd ++ state.tokens
        count := state.count + count }

/-- Open a block collection at a column, if it is beyond the indentation. -/
def indentTo (column : Nat) : Tokenize Bool := do
  -- The result says whether it was.
  let state ← get
  if state.indent < column then
    set { state with indent := column, outerIndents := state.indent :: state.outerIndents }
    return true
  else return false

/-- Append a token that takes some characters. -/
def take (count : Nat) (token : Token) : Tokenize Unit := do
  scan (Scan.skip count)
  push token

/-- A directive or a mark between documents: all collections end. -/
def betweenDocuments (reader : Scan Token) : Tokenize Unit := do
  unwind (-1)
  dropKey
  allowKey false
  push (← scan reader)

def openFlow (token : Token) : Tokenize Unit := do
  saveKey
  modify fun state => { state with flowLevel := state.flowLevel + 1 }
  allowKey true
  take 1 token

/-- The end of a flow collection, one of which has to be open. -/
def closeFlow (token : Token) : Tokenize Unit := do
  dropKey
  allowKey false
  take 1 token
  if ← inBlock then throw .malformed
  modify fun state => { state with flowLevel := state.flowLevel - 1 }

/-- The comma between the items of a flow collection. -/
def flowItem : Tokenize Unit := do
  allowKey true
  dropKey
  take 1 .flowItem

/-- The mark of an item or a key at the start of a line, which may open a collection. -/
def blockMark (collection mark : Token) : Tokenize Unit := do
  let block ← inBlock
  if block then
    if !(← get).allowKey then throw .malformed
    if ← indentTo (← get).cursor.column then push collection
  allowKey (block || mark = .blockItem)
  dropKey
  take 1 mark

/-- The mark of a value. -/
def valueMark : Tokenize Unit := do
  -- A word remembered as a possible key becomes one.
  let state ← get
  match innermostKey? state with
  | some (key, others) =>
    set { state with keys := others }
    insertAt key.position .key
    if ← inBlock then
      if ← indentTo key.column then insertAt key.position .blockMappingStart
    allowKey false
    take 1 .value
  | none => blockMark .blockMappingStart .value

def wordToken (reader : Scan Token) : Tokenize Unit := do
  saveKey
  allowKey false
  push (← scan reader)

/-- A plain scalar. -/
def plain : Tokenize Unit := do
  -- A key may follow if it ends at the start of a line.
  saveKey
  let state ← get
  let (text, broken) ← scan (plainScalar (state.flowLevel != 0) (state.indent + 1))
  allowKey broken
  push (.scalar text true)

def block : Tokenize Unit := do
  allowKey true
  dropKey
  push (.scalar (← scan (blockScalar (← get).indent)) false)

/-- Go to the next token, over spaces, comments and line breaks. -/
def skipBlanks : Nat → Tokenize Unit
  -- In block context a key may start on a new line.
  | 0 => throw .malformed
  | fuel + 1 => do
    let _ ← scan (Scan.takeWhile (· = ' '))
    if (← scan (Scan.peek 0)) = '#' then
      let _ ← scan (Scan.takeWhile fun c => !isLineEnd c)
    let ending ← scan Scan.lineBreak
    if !ending.isEmpty then
      if ← inBlock then allowKey true
      skipBlanks fuel

/-- Characters that no plain scalar starts with, unless what follows allows it. -/
def isIndicator (c : Char) : Bool := "-?:,[]\x7b\x7d#&*!|>'\"%@`".toList.contains c

def atPlain (inFlow : Bool) : Scan Bool := do
  let c ← Scan.peek 0
  if !(isBlankOrEnd c || isIndicator c) then return true
  let following ← Scan.peek 1
  return !isBlankOrEnd following && (c = '-' || (!inFlow && (c = '?' || c = ':')))

/-- The mark of an item, of a key or of a value stands here. -/
def atMark (inFlow : Bool) : Scan Bool := do
  -- Only in a flow collection need no blank follow the last two.
  let c ← Scan.peek 0
  if c != '-' && c != '?' && c != ':' then return false
  else if inFlow && c != '-' then return true
  else return isBlankOrEnd (← Scan.peek 1)

/-- A mark between documents stands here, at the start of a line. -/
def atSeparator : Scan Bool := do
  let c ← Scan.peek 0
  if (c = '-' || c = '.') && (← get).column = 0 then Scan.atSeparator
  else return false

/-- The token at the cursor, which is not at the end. -/
def token : Tokenize Unit := do
  let c ← scan (Scan.peek 0)
  let block ← inBlock
  if c = '%' && (← get).cursor.column = 0 then betweenDocuments Token.readDirective
  else if ← scan atSeparator then
    betweenDocuments do
      Scan.skip 3
      return if c = '-' then .documentStart else .documentEnd
  else if c = '[' then openFlow .flowSequenceStart
  else if c = '\x7b' then openFlow .flowMappingStart
  else if c = ']' then closeFlow .flowSequenceEnd
  else if c = '\x7d' then closeFlow .flowMappingEnd
  else if c = ',' then flowItem
  else if ← scan (atMark !block) then
    if c = '-' then blockMark .blockSequenceStart .blockItem
    else if c = '?' then blockMark .blockMappingStart .key
    else valueMark
  else if c = '*' then wordToken (Token.alias <$> Token.anchorName)
  else if c = '&' then wordToken (Token.anchor <$> Token.anchorName)
  else if c = '!' then wordToken Token.readTag
  else if (c = '|' || c = '>') && block then Tokenize.block
  else if c = '\'' || c = '"' then wordToken ((Token.scalar · false) <$> quotedScalar)
  else if ← scan (atPlain !block) then plain
  else throw .malformed

/-- Go on to the next token. -/
def step : Tokenize Bool := do
  -- The result says whether there was one.
  dropLateKeys
  skipBlanks ((← get).cursor.remaining + 1)
  dropLateKeys
  unwind (← get).cursor.column
  if (← scan (Scan.peek 0)) = endMark then do
    unwind (-1)
    dropKey
    return false
  else do
    token
    return true

end Tokenize

/-- The tokens that are sure: those before the first that may still become a key. -/
def Tokenizer.sureTokens (state : Tokenizer) : List Token :=
  let keys := state.keys.filter fun entry => !Tokenize.isLate state.cursor entry.2
  match (keys.map (·.2.position)).min? with
  | none => state.tokens.reverse
  | some position => (state.tokens.drop (state.count - position)).reverse

/-- All tokens from a state on. -/
def Tokenizer.run : Nat → Tokenizer → TokenList
  | 0, state => ⟨state.sureTokens, some .malformed⟩
  | fuel + 1, state =>
    match Tokenize.step.run state with
    | .ok (true, state) => run fuel state
    | .ok (false, state) => ⟨state.tokens.reverse, none⟩
    | .error problem => ⟨state.sureTokens, some problem⟩

def TokenList.ofInput (input : Input) : TokenList :=
  (Tokenize.start input).run (input.text.length + 1)

end IgnoreRules.Yaml
