import IgnoreRules.Yaml.Form
import IgnoreRules.Yaml.Token

/-!
# YAML nodes

A document is made of scalars, sequences and mappings, each with a tag. They are numbered,
and a collection refers to its parts by their numbers, so that an alias is one more
reference to the node that carries its anchor. An anchor may be given only once, to a node
that starts before the aliases; a collection may contain an alias of itself.

The nodes are read off the tokens, and a text holds at most one document.
-/

namespace IgnoreRules.Yaml

abbrev NodeId := Nat

inductive Shape
  | scalar (text : List Char)
  | sequence (items : List NodeId)
  | mapping (entries : List (NodeId × NodeId))
  deriving DecidableEq, Repr, Inhabited

structure Node where
  tag : Tag
  shape : Shape
  deriving DecidableEq, Repr

/-- The tokens still to be read, what names stand for, and the nodes read so far. -/
structure NodeReader where
  rest : List Token
  /-- What is wrong with the text after the tokens, if anything is. -/
  ending : Option Error
  /-- What tag handles stand for. -/
  handles : List (List Char × List Char)
  anchors : List (List Char × NodeId)
  nodes : Array Node
  /-- The number of collections around the next node. -/
  depth : Nat

abbrev ReadNode := StateT NodeReader (Except Error)

namespace Node

/-- Collections nest no deeper. -/
def maxDepth : Nat := 488

def peek : ReadNode (Option Token) := do
  let reader ← get
  match reader.rest, reader.ending with
  | token :: _, _ => return some token
  | [], none => return none
  | [], some problem => throw problem

def drop : ReadNode Unit := modify fun reader => { reader with rest := reader.rest.tail }

/-- Pass over a token if it is the next one, and say whether it was. -/
def passes (token : Token) : ReadNode Bool := do
  if (← peek) = some token then
    drop
    return true
  else return false

def demand (token : Token) : ReadNode Unit := do
  if !(← passes token) then throw .malformed

/-- The next token is one of a few. -/
def isNext (tokens : List Token) : ReadNode Bool := do
  return match ← peek with
    | some token => tokens.contains token
    | none => false

/-! ## Properties of nodes -/

def anchor? : ReadNode (Option (List Char)) := do
  match ← peek with
  | some (.anchor name) => do
    drop
    return some name
  | _ => return none

/-- A tag as it is written, if one is next. -/
def tag? : ReadNode (Option (Option (List Char) × List Char)) := do
  match ← peek with
  | some (.tag handle suffix) => do
    drop
    return some (handle, suffix)
  | _ => return none

/-- A tag with its handle replaced by what that stands for. -/
def expandTag (handle : Option (List Char)) (suffix : List Char) : ReadNode (List Char) := do
  match handle with
  | none => return suffix
  | some handle =>
    match (← get).handles.lookup handle with
    | some lead => return lead ++ suffix
    | none => throw .malformed

/-- The anchor and the tag of a node, in either order. -/
def properties : ReadNode (Option (List Char) × Option (List Char)) := do
  let first ← anchor?
  let tag ← tag?
  let anchor ← if first.isNone && tag.isSome then anchor? else pure first
  match tag with
  | none => return (anchor, none)
  | some (handle, suffix) => return (anchor, some (← expandTag handle suffix))

/-- The tag of a scalar. -/
def scalarTag (written : Option (List Char)) (plain : Bool) (text : List Char) : Tag :=
  -- With the mark `!` alone its form decides even if it is not plain.
  match written with
  | none => if plain then Tag.ofForm text else .text
  | some uri => if uri = ['!'] then Tag.ofForm text else Tag.ofUri uri

/-- The tag of a collection, which the mark `!` alone leaves as it would be without. -/
def collectionTag (written : Option (List Char)) (usual : Tag) : Tag :=
  match written with
  | none => usual
  | some uri => if uri = ['!'] then usual else Tag.ofUri uri

/-! ## Reading nodes -/

/-- Add a node, under an anchor if there is one. -/
def add (anchor : Option (List Char)) (node : Node) : ReadNode NodeId := do
  let reader ← get
  let id := reader.nodes.size
  let anchors ← match anchor with
    | none => pure reader.anchors
    | some name =>
      if (reader.anchors.lookup name).isSome then throw .malformed
      else pure ((name, id) :: reader.anchors)
  set { reader with anchors, nodes := reader.nodes.push node }
  return id

/-- Add the empty node, which stands where a node could be and none is. -/
def addEmpty : ReadNode NodeId := add none ⟨.null, .scalar []⟩

def complete (id : NodeId) (shape : Shape) : ReadNode NodeId := do
  modify fun reader =>
    { reader with nodes := reader.nodes.modify id fun node => { node with shape } }
  return id

/-- Read what is inside a collection. -/
def inside (work : ReadNode α) : ReadNode α := do
  modify fun reader => { reader with depth := reader.depth + 1 }
  let result ← work
  modify fun reader => { reader with depth := reader.depth - 1 }
  return result

/-- The node that an alias stands for. -/
def ofAlias (name : List Char) : ReadNode NodeId := do
  match (← get).anchors.lookup name with
  | some id => return id
  | none => throw .malformed

mutual

/-- A node. -/
def read (block unindented : Bool) : Nat → ReadNode NodeId
  -- Block collections occur only in block context, and a sequence that is not indented only as a
  -- key or a value of a mapping.
  | 0 => throw .malformed
  | fuel + 1 => do
    if maxDepth < (← get).depth then throw .tooDeep
    match ← peek with
    | some (.alias name) => do
      drop
      ofAlias name
    | _ => do
      let (anchor, tag) ← properties
      readContent block unindented anchor tag fuel

/-- A node after its anchor and its tag, which may stand for an empty node. -/
def readContent (block unindented : Bool) (anchor tag : Option (List Char)) :
    Nat → ReadNode NodeId
  | 0 => throw .malformed
  | fuel + 1 => do
    let next ← peek
    let sequence := add anchor ⟨collectionTag tag .sequence, .sequence []⟩
    let mapping := add anchor ⟨collectionTag tag .mapping, .mapping []⟩
    if unindented && next = some .blockItem then do
      let id ← sequence
      complete id (.sequence (← inside (readItems [.blockItem, .key, .value, .blockEnd] fuel)))
    else match next with
      | some (.scalar text plain) => do
        drop
        add anchor ⟨scalarTag tag plain text, .scalar text⟩
      | some .flowSequenceStart => do
        let id ← sequence
        drop
        complete id (.sequence (← inside (readFlowItems true fuel)))
      | some .flowMappingStart => do
        let id ← mapping
        drop
        complete id (.mapping (← inside (readFlowEntries true fuel)))
      | some .blockSequenceStart => do
        if !block then throw .malformed
        let id ← sequence
        drop
        let items ← inside (readItems [.blockItem, .blockEnd] fuel)
        demand .blockEnd
        complete id (.sequence items)
      | some .blockMappingStart => do
        if !block then throw .malformed
        let id ← mapping
        drop
        let entries ← inside (readEntries fuel)
        demand .blockEnd
        complete id (.mapping entries)
      | _ => do
        if anchor.isNone && tag.isNone then throw .malformed
        add anchor ⟨scalarTag tag true [], .scalar []⟩

/-- A node, or the empty node before tokens that no node starts with. -/
def readUnless (block unindented : Bool) (ends : List Token) : Nat → ReadNode NodeId
  | 0 => throw .malformed
  | fuel + 1 => do
    if ← isNext ends then addEmpty
    else read block unindented fuel

/-- The value of an entry, or the empty node if it has none. -/
def readValue (block unindented : Bool) (ends : List Token) : Nat → ReadNode NodeId
  | 0 => throw .malformed
  | fuel + 1 => do
    if ← passes .value then readUnless block unindented ends fuel
    else addEmpty

def readItems (ends : List Token) : Nat → ReadNode (List NodeId)
  | 0 => throw .malformed
  | fuel + 1 => do
    if ← passes .blockItem then do
      let item ← readUnless true false ends fuel
      return item :: (← readItems ends fuel)
    else return []

def readEntries : Nat → ReadNode (List (NodeId × NodeId))
  | 0 => throw .malformed
  | fuel + 1 => do
    if ← passes .key then do
      let key ← readUnless true true [.key, .value, .blockEnd] fuel
      let value ← readValue true true [.key, .value, .blockEnd] fuel
      return (key, value) :: (← readEntries fuel)
    else return []

/-- The items of a flow sequence, after its start or an item. -/
def readFlowItems (first : Bool) : Nat → ReadNode (List NodeId)
  -- A single entry may stand for a mapping.
  | 0 => throw .malformed
  | fuel + 1 => do
    if ← passes .flowSequenceEnd then return []
    if !first then demand .flowItem
    if ← passes .key then do
      let id ← add none ⟨.mapping, .mapping []⟩
      let key ← inside (readUnless false false [.value, .flowItem, .flowSequenceEnd] fuel)
      let value ← inside (readValue false false [.flowItem, .flowSequenceEnd] fuel)
      let item ← complete id (.mapping [(key, value)])
      return item :: (← readFlowItems false fuel)
    else if ← passes .flowSequenceEnd then return []
    else do
      let item ← read false false fuel
      return item :: (← readFlowItems false fuel)

/-- The entries of a flow mapping, after its start or an entry. -/
def readFlowEntries (first : Bool) : Nat → ReadNode (List (NodeId × NodeId))
  | 0 => throw .malformed
  | fuel + 1 => do
    if ← passes .flowMappingEnd then return []
    if !first then demand .flowItem
    if ← passes .key then do
      let key ← readUnless false false [.value, .flowItem, .flowMappingEnd] fuel
      let value ← readValue false false [.flowItem, .flowMappingEnd] fuel
      return (key, value) :: (← readFlowEntries false fuel)
    else if ← passes .flowMappingEnd then return []
    else do
      let key ← read false false fuel
      return (key, ← addEmpty) :: (← readFlowEntries false fuel)

end

/-! ## Documents -/

/-- What the handles `!` and `!!` stand for unless a directive says otherwise. -/
def defaultHandles : List (List Char × List Char) :=
  [(['!'], ['!']), (['!', '!'], Tag.standardLead)]

/-- The directives before a document. -/
def readDirectives (versionGiven : Bool) (handles : List (List Char × List Char)) :
    List Token → ReadNode Unit
  | .versionDirective major :: rest => do
    if versionGiven || major != 1 then throw .malformed
    readDirectives true handles rest
  | .tagDirective handle lead :: rest => do
    if (handles.lookup handle).isSome then throw .malformed
    readDirectives versionGiven ((handle, lead) :: handles) rest
  | .otherDirective :: rest => readDirectives versionGiven handles rest
  | rest => modify fun reader => { reader with rest, handles := handles ++ defaultHandles }

/-- The start of a document that is announced, up to its `---`. -/
def readStart : ReadNode Unit := do
  readDirectives false [] (← get).rest
  demand .documentStart

/-- The first document, if there is one. -/
def readDocument (fuel : Nat) : ReadNode (Option NodeId) := do
  -- A document that is announced by directives or `---` may be empty.
  match ← peek with
  | none => return none
  | some (.versionDirective _) | some (.tagDirective _ _) | some .otherDirective
  | some .documentStart => do
    readStart
    match ← peek with
    | none | some .documentStart | some .documentEnd | some .otherDirective
    | some (.versionDirective _) | some (.tagDirective _ _) => return some (← addEmpty)
    | some _ => return some (← read true false fuel)
  | _ => return some (← read true false fuel)

/-- Demand that no other document follows. -/
def readEnd : ReadNode Unit := do
  modify fun reader => { reader with rest := reader.rest.dropWhile (· = .documentEnd) }
  if (← peek).isSome then
    readStart
    throw .malformed

end Node

/-- The nodes of a document, and the one that all others are parts of. -/
structure NodeGraph where
  nodes : Array Node
  root : NodeId
  deriving Repr

/-- The document that tokens make up, if they do not make up none at all. -/
def NodeGraph.ofTokens (found : TokenList) : Except Error (Option NodeGraph) := do
  let reader : NodeReader := ⟨found.tokens, found.ending, Node.defaultHandles, [], #[], 0⟩
  let work : ReadNode (Option NodeId) := do
    let root ← Node.readDocument (4 * found.tokens.length + 4)
    Node.readEnd
    return root
  let (root, reader) ← work.run reader
  return root.map fun root => ⟨reader.nodes, root⟩

end IgnoreRules.Yaml
