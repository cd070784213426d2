import IgnoreRules.Value

/-!
# Graphs of values

A document may use one list or map in several places, and even inside itself. Its values
are then no trees: they are the parts of a graph, and a part refers to others by their
places. `ValueGraph.at?` follows a path of keys through nested maps, and `unfold` gives the
tree that a part looks like from its place. Where a list or a map occurs inside itself, the
tree ends with a mark.

A part that does not lie in itself looks the same wherever it stands, and is unfolded only
once. So without such parts the work does not grow with the size of the tree.
-/

namespace IgnoreRules

/-- The number of a part of a graph. -/
abbrev Place := Nat

/-- A part of a graph. Keys are never parts of their own. -/
inductive Part
  | atom (value : Value)
  | list (items : List Place)
  | pairs (items : List (Place × Place))
  | map (entries : List (Value × Place))
  | set (keys : List Value)
  deriving Repr, Inhabited

/-- The parts of a document, by their places, and the place of the whole. -/
structure ValueGraph where
  parts : Array Part
  root : Place
  deriving Repr

namespace ValueGraph

def part (graph : ValueGraph) (place : Place) : Part := graph.parts.getD place (.atom .null)

def isMap (graph : ValueGraph) : Bool :=
  match graph.part graph.root with
  | .map _ => true
  | _ => false

/-- The place of the value of a key, in a map. -/
def field? (graph : ValueGraph) (place : Place) (key : String) : Option Place :=
  match graph.part place with
  | .map entries => (entries.find? fun entry => entry.1.sameKey (.text key)).map (·.2)
  | _ => none

/-- The place that a path of keys leads to from a place. -/
def follow? (graph : ValueGraph) (place : Place) : List String → Option Place
  | [] => some place
  | key :: rest =>
    match graph.field? place key with
    | some inner => graph.follow? inner rest
    | none => none

/-! ## Unfolding -/

/-- The trees of parts that do not lie in themselves, as far as they are known, by place. -/
abbrev Unfold := StateM (Array (Option Value))

/-- The tree of a part. The height of a part is the number of parts around it, and the reach
of a tree is the least height of the parts that its marks stand for. Without marks it is
above the height of the part itself. -/
structure Unfolded where
  tree : Value
  reach : Nat

def backMark : Part → Value
  | .map _ => .enclosing true
  | _ => .enclosing false

/-- Put the trees of parts together, which stand at the given height. -/
def gather (build : List Value → Value) (height : Nat) (parts : List Unfolded) : Unfolded where
  tree := build (parts.map (·.tree))
  reach := parts.foldl (fun reach part => min reach part.reach) height

def inPairs : List Value → List Value
  | first :: second :: rest => .pair first second :: inPairs rest
  | _ => []

/-- The tree of the part at a place. -/
def unfoldFrom (graph : ValueGraph) : Nat → List Place → Place → Unfold Unfolded
  -- The places of the parts around it are given, innermost first.
  | 0, _, _ => pure ⟨.null, 0⟩
  | fuel + 1, around, place => do
    let height := around.length
    if let some tree := (← get).getD place none then return ⟨tree, height + 1⟩
    if let some between := around.idxOf? place then
      return ⟨backMark (graph.part place), height - (between + 1)⟩
    let inner := graph.unfoldFrom fuel (place :: around)
    let found ← match graph.part place with
      | .atom value => pure ⟨value, height + 1⟩
      | .set keys => pure ⟨.set keys, height + 1⟩
      | .list items => gather .list (height + 1) <$> items.mapM inner
      | .pairs items =>
        let places := items.flatMap fun item => [item.1, item.2]
        gather (.list ∘ inPairs) (height + 1) <$> places.mapM inner
      | .map entries =>
        let build := fun trees => Value.map ((entries.map (·.1)).zip trees)
        gather build (height + 1) <$> entries.mapM fun entry => inner entry.2
    if height < found.reach then
      modify fun known => known.setIfInBounds place (some found.tree)
    return found

def unfold (graph : ValueGraph) (place : Place) : Value :=
  let size := graph.parts.size
  ((graph.unfoldFrom (size + 1) [] place).run (Array.replicate size none)).1.tree

/-- The value that a path of keys leads to through nested maps. -/
def at? (graph : ValueGraph) (path : List String) : Option Value :=
  (graph.follow? graph.root path).map graph.unfold

end ValueGraph
end IgnoreRules
