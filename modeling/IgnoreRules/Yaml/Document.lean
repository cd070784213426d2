import IgnoreRules.ValueGraph
import IgnoreRules.Yaml.Node
import IgnoreRules.Yaml.TokenList

/-!
# YAML documents

The values of a document are a graph with the same places as its nodes. A mapping may give
a key more than once, and the last value holds; under the key `<<` it takes over the
entries of other mappings, which give way to its own, and of several mappings the first
holds. Keys are neither lists nor maps.

Values are built from the outside in: a collection is there, still empty, as soon as it is
met, and is filled after everything that was met before it. So a collection may contain
itself, and of several faults in a document the outermost is found first.
-/

namespace IgnoreRules.Yaml

abbrev Entries := List (NodeId × NodeId)

/-- Values under construction. -/
structure Builder where
  nodes : Array Node
  /-- The values of the nodes that have been met. -/
  parts : Array (Option Part)
  /-- The collections that have been met and are still empty, last first. -/
  waiting : List NodeId
  /-- More than there are merge keys. -/
  mergeBound : Nat

/-- Builds values. -/
abbrev Build := StateT Builder (Except Error)

/-- A key of a map. What is no number is the same key only if it has the same origin: the
node, or the mark `.nan`, which has none of its own. -/
structure Key where
  value : Value
  origin : Option NodeId

namespace Key

def same (left right : Key) : Bool :=
  match left.value, right.value with
  | .real .notANumber, .real .notANumber => left.origin = right.origin
  | leftValue, rightValue => leftValue.sameKey rightValue

/-- Set the value of a key. -/
def put (entries : List (Key × Place)) (entry : Key × Place) : List (Key × Place) :=
  -- A new key goes to the end, a known one keeps its place.
  match entries with
  | [] => [entry]
  | first :: rest =>
    if first.1.same entry.1 then (first.1, entry.2) :: rest else first :: put rest entry

end Key

namespace Build

def node (id : NodeId) : Build Node := do
  match (← get).nodes[id]? with
  | some node => return node
  | none => throw .malformed

def entriesOf (id : NodeId) : Build Entries := do
  match (← node id).shape with
  | .mapping entries => return entries
  | _ => throw .malformed

def itemsOf (id : NodeId) : Build (List NodeId) := do
  match (← node id).shape with
  | .sequence items => return items
  | _ => throw .malformed

def setTag (id : NodeId) (tag : Tag) : Build Unit :=
  modify fun builder =>
    { builder with nodes := builder.nodes.modify id fun node => { node with tag } }

def setEntries (id : NodeId) (entries : Entries) : Build Unit :=
  modify fun builder =>
    { builder with
      nodes := builder.nodes.modify id fun node => { node with shape := .mapping entries } }

def setPart (id : NodeId) (part : Part) : Build Unit :=
  modify fun builder => { builder with parts := builder.parts.setIfInBounds id (some part) }

def size : Build Nat := do return (← get).nodes.size

/-! ## Taking over entries -/

/-- Split entries at the first one that satisfies a test. -/
def splitAtFirst (test : NodeId → Build Bool) :
    Entries → Build (Option (Entries × NodeId × Entries))
  | [] => return none
  | (key, value) :: rest => do
    if ← test key then return some ([], value, rest)
    match ← splitAtFirst test rest with
    | some (before, found, after) => return some ((key, value) :: before, found, after)
    | none => return none

def hasTag (tag : Tag) (id : NodeId) : Build Bool := do return (← node id).tag = tag

/-- Make ordinary text of the value keys of a mapping. -/
def settleValueKeys (id : NodeId) : Build Unit := do
  (← entriesOf id).forM fun entry => do
    if ← hasTag .valueKey entry.1 then setTag entry.1 .text

/-- The entries that a mapping takes over, in front of those that are known. -/
def takeOver : Nat → Entries → NodeId → Build Entries
  -- A merge key is removed before the mapping under it is looked at, which may be the same one.
  | 0, _, _ => throw .malformed
  | fuel + 1, known, id => do
    match ← splitAtFirst (hasTag .mergeKey) (← entriesOf id) with
    | none => return known
    | some (before, value, after) => do
      setEntries id (before ++ after)
      let flatten := fun inner => do
        let taken ← takeOver fuel [] inner
        settleValueKeys inner
        let entries := taken ++ (← entriesOf inner)
        setEntries inner entries
        return entries
      let taken ← match (← node value).shape with
        | .scalar _ => throw .malformed
        | .mapping _ => flatten value
        | .sequence items => (·.reverse.flatten) <$> items.mapM flatten
      takeOver fuel (known ++ taken) id

/-- The entries of a mapping with those it takes over in front. -/
def allEntries (id : NodeId) : Build Entries := do
  let taken ← takeOver (← get).mergeBound [] id
  settleValueKeys id
  let entries := taken ++ (← entriesOf id)
  setEntries id entries
  return entries

/-! ## Meeting and filling nodes -/

/-- The text of a scalar. -/
def textOf : Nat → NodeId → Build (List Char)
  -- A mapping has the text that it gives under its value key.
  | 0, _ => throw .tooDeep
  | fuel + 1, id => do
    match (← node id).shape with
    | .scalar text => return text
    | .sequence _ => throw .malformed
    | .mapping entries =>
      match ← splitAtFirst (hasTag .valueKey) entries with
      | some (_, value, _) => textOf fuel value
      | none => throw .malformed

/-- The value of a node whose tag is not that of a collection. -/
def scalarValue (id : NodeId) (tag : Tag) : Build Value := do
  match tag with
  | .mergeKey | .valueKey | .unknown => throw .malformed
  | _ => do
    let text ← textOf ((← size) + 1) id
    match tag, (← node id).shape with
    | .timestamp, .mapping _ => throw (.scalar .noText)
    | _, _ => tag.valueOf text

/-- What a collection is before it is filled. -/
def emptyPart? : Tag → Option Part
  -- Scalars are no collections.
  | .sequence => some (.list [])
  | .mapping => some (.map [])
  | .set => some (.set [])
  | .orderedMap | .pairs => some (.pairs [])
  | _ => none

/-- Meet a node. -/
def meet (id : NodeId) : Build Part := do
  -- A scalar gets its value, a collection has to wait.
  match (← get).parts.getD id none with
  | some part => return part
  | none => do
    let tag := (← node id).tag
    match emptyPart? tag with
    | some part => do
      setPart id part
      modify fun builder => { builder with waiting := id :: builder.waiting }
      return part
    | none => do
      let part := Part.atom (← scalarValue id tag)
      setPart id part
      return part

/-- Meet a node that is a key. -/
def meetKey (id : NodeId) : Build Key := do
  match ← meet id, (← node id).shape with
  | .atom value, .scalar text => return ⟨value, if Numeral.isNotANumber text then none else some id⟩
  | .atom value, _ => return ⟨value, some id⟩
  | _, _ => throw .malformed

def mapEntries (id : NodeId) : Build (List (Value × Place)) := do
  let entries ← (← allEntries id).mapM fun entry => do
    let key ← meetKey entry.1
    let _ ← meet entry.2
    return (key, entry.2)
  return (entries.foldl Key.put []).map fun entry => (entry.1.value, entry.2)

/-- The only entry of a mapping, in a sequence of pairs. -/
def onlyEntry (id : NodeId) : Build (NodeId × NodeId) := do
  match ← entriesOf id with
  | [entry] => return entry
  | _ => throw .malformed

/-- The pairs of a sequence of mappings with one entry each. -/
def pairsOf (id : NodeId) : Build (List (Place × Place)) := do
  (← itemsOf id).mapM fun item => do
    let entry ← onlyEntry item
    let _ ← meet entry.1
    let _ ← meet entry.2
    return entry

def fill (id : NodeId) : Build Unit := do
  match (← node id).tag with
  | .sequence => do
    let items ← itemsOf id
    items.forM fun item => do
      let _ ← meet item
    setPart id (.list items)
  | .mapping => setPart id (.map (← mapEntries id))
  | .set => setPart id (.set ((← mapEntries id).map (·.1)))
  | .orderedMap | .pairs => setPart id (.pairs (← pairsOf id))
  | _ => throw .malformed

/-- Fill all collections, in the order in which they were met. -/
def fillAll : Nat → Build Unit
  | 0 => throw .malformed
  | fuel + 1 => do
    match (← get).waiting.reverse with
    | [] => return
    | met => do
      modify fun builder => { builder with waiting := [] }
      met.forM fill
      fillAll fuel

end Build

/-- The number of entries of all mappings. -/
def NodeGraph.entryCount (graph : NodeGraph) : Nat :=
  graph.nodes.foldl (fun count node =>
    match node.shape with
    | .mapping entries => count + entries.length
    | _ => count) 0

def NodeGraph.values (graph : NodeGraph) : Except Error ValueGraph := do
  let size := graph.nodes.size
  let work : Build Unit := do
    let _ ← Build.meet graph.root
    Build.fillAll (size + 1)
  let (_, builder) ← work.run ⟨graph.nodes, Array.replicate size none, [], graph.entryCount + 1⟩
  return ⟨builder.parts.map (·.getD (.atom .null)), graph.root⟩

/-- The values of a text. -/
def read (input : Input) : Except Error ValueGraph := do
  -- A text without a document is null.
  match ← NodeGraph.ofTokens (TokenList.ofInput input) with
  | some graph => graph.values
  | none => return ⟨#[.atom .null], 0⟩

end IgnoreRules.Yaml
