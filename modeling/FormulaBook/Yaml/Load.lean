import FormulaBook.Text.Lines
import FormulaBook.Yaml.Document
import FormulaBook.Yaml.Node

/-!
# Loading YAML

The document that the nodes of a text stand for. A collection gets its number when it is first met,
and what it holds is looked at after all that was met before it, so of several mistakes the one that
is least deep is found first.

* `Construct`: a computation on the state of a construction, `Construction`;
* `merge`: the entries of merged mappings come before those of the mapping they are merged into;
* `build`: the item that a node stands for;
* `contents`: what a collection holds;
* `load`: the document of a text, which is null if the text holds none.
-/

namespace FormulaBook.Yaml

/-- The node of a number. -/
def Graph.node (g : Graph) (number : Nat) : Node := g[number]?.getD .absent

/-- The type of the node of a number. -/
def Graph.tag (g : Graph) (number : Nat) : Tag := (g.node number).tag

/-- The entries of the mapping of a number; other nodes have none. -/
def Graph.entries (g : Graph) (number : Nat) : List (Nat × Nat) :=
  match (g.node number).form with
  | .mapping entries => entries
  | _ => []

/-- The text of a scalar, or of the scalar under the key `=` of a mapping, which may stand in at
most `depth` mappings. -/
def Graph.text (g : Graph) : Nat → Nat → Except Error String
  | 0, _ => .error .unsuitable
  | depth + 1, number =>
    match (g.node number).form with
    | .scalar text => .ok text
    | .sequence _ => .error .malformed
    | .mapping entries =>
      match entries.find? fun (k, _) => g.tag k == .value with
      | some (_, v) => g.text depth v
      | none => .error .malformed

/-- How deep merged mappings, and mappings that stand for a scalar, may stand in each other. -/
def mergeLimit : Nat := 950

/-- The kinds of collection. -/
inductive Shape where
  | list
  | pairs
  | map
  | set
  deriving DecidableEq, Repr

/-- What has been constructed of the nodes of a text: the nodes, as merging has changed them, the
items of the nodes that have been met, and the collections that have a number, each with its node
and its kind. -/
structure Construction where
  graph : Graph
  built : Array (Option Item)
  met : Array (Nat × Shape) := #[]

/-- A computation that merges mappings and builds items. -/
abbrev Construct := StateT Construction (Except Error)

namespace Construct

/-- Changes the node of a number. -/
def change (number : Nat) (f : Node → Node) : Construct Unit :=
  modify fun s => { s with graph := s.graph.modify number f }

/-- Sets the entries of the mapping of a number. -/
def setEntries (number : Nat) (entries : List (Nat × Nat)) : Construct Unit :=
  change number ({ · with form := .mapping entries })

/-! ### Merging -/

/-- A bound for the steps of a merge. -/
def mergeSteps : Nat := Nat.pow 10 9

mutual

/-- Merges into the mapping of a number, from the entry at `index` on, what its entries ask for.
What has been merged before is held apart, and put in front at the end. -/
def mergeFrom : Nat → Nat → Nat → Nat → List (Nat × Nat) → Construct Unit
  | 0, _, _, _, _ => throw .unsuitable
  | fuel + 1, depth, number, index, merged => do
    let g := (← get).graph
    let entries := g.entries number
    match entries[index]? with
    | none => if !merged.isEmpty then setEntries number (merged ++ entries)
    | some (k, v) =>
      match g.tag k with
      | .merge => do
        setEntries number (entries.eraseIdx index)
        mergeFrom fuel depth number index (merged ++ (← mergedEntries fuel depth v))
      | .value => do
        change k ({ · with tag := .str })
        mergeFrom fuel depth number (index + 1) merged
      | _ => mergeFrom fuel depth number (index + 1) merged

/-- The entries of a mapping, after what it asks for has been merged into it. -/
def entriesOf : Nat → Nat → Nat → Construct (List (Nat × Nat))
  | 0, _, _ | _, 0, _ => throw .unsuitable
  | fuel + 1, depth + 1, number => do
    let g := (← get).graph
    let asks (k : Nat) : Bool := g.tag k == .merge || g.tag k == .value
    if (g.entries number).any fun (k, _) => asks k then mergeFrom fuel depth number 0 []
    return (← get).graph.entries number

/-- The entries that are merged for a node: those of a mapping, or of a list of mappings. -/
def mergedEntries : Nat → Nat → Nat → Construct (List (Nat × Nat))
  | 0, _, _ => throw .unsuitable
  | fuel + 1, depth, number => do
    match ((← get).graph.node number).form with
    | .mapping _ => entriesOf fuel depth number
    | .sequence items => mergedItems fuel depth [] items
    | .scalar _ => throw .malformed

/-- The entries of some mappings, the last mapping first, before `done`. -/
def mergedItems : Nat → Nat → List (Nat × Nat) → List Nat → Construct (List (Nat × Nat))
  | 0, _, _, _ => throw .unsuitable
  | _, _, done, [] => return done
  | fuel + 1, depth, done, number :: rest => do
    match ((← get).graph.node number).form with
    | .mapping _ => mergedItems fuel depth ((← entriesOf fuel depth number) ++ done) rest
    | _ => throw .malformed

end

/-- The entries of a mapping, after what it asks for has been merged into it. -/
def merge (number : Nat) : Construct (List (Nat × Nat)) := entriesOf mergeSteps mergeLimit number

/-! ### Items -/

/-- The number of a new collection. -/
def meet (number : Nat) (shape : Shape) : Construct Item :=
  modifyGet fun s => (.collection s.met.size, { s with met := s.met.push (number, shape) })

/-- The item that a node stands for, which is met for the first time. -/
def buildNew (number : Nat) : Construct Item := do
  let g := (← get).graph
  let n := g.node number
  match n.tag with
  | .seq => meet number .list
  | .omap | .pairs => meet number .pairs
  | .map => meet number .map
  | .set => meet number .set
  | .merge | .value | .other => throw .malformed
  | tag => do
    let text ← g.text mergeLimit number
    match tag, n.form with
    | .timestamp, .mapping _ => throw .unsuitable
    | _, _ => return .scalar (← scalarValue tag text)

/-- The item that a node stands for. -/
def build (number : Nat) : Construct Item := do
  match (← get).built[number]? with
  | some (some item) => return item
  | _ =>
    let item ← buildNew number
    modify fun s => { s with built := s.built.setIfInBounds number (some item) }
    return item

/-! ### Collections -/

/-- A key of a map or a member of a set, with the number of its node. A double that is no number is
the same key as itself only, and those that are written with the word for it are one; they have no
number. -/
structure Key where
  value : Value
  origin : Option Nat

/-- Whether two keys are the same key. -/
def Key.isSame (a b : Key) : Bool :=
  if a.value.isNaN && b.value.isNaN then a.origin == b.origin else a.value.sameKey b.value

/-- Entries with `item` under a key: in the place of the entry that is there, or at the end. -/
def insertItem (key : Key) (item : Item) : List (Key × Item) → List (Key × Item)
  | [] => [(key, item)]
  | (k, old) :: rest =>
    if k.isSame key then (k, item) :: rest else (k, old) :: insertItem key item rest

/-- The key that a node stands for. Collections cannot be keys. -/
def key (number : Nat) : Construct Key := do
  match ← build number with
  | .collection _ => throw .malformed
  | .scalar v => do
    let isWord := ((← get).graph.text mergeLimit number).toOption.any isNaNWord
    return ⟨v, if v.isNaN && isWord then none else some number⟩

/-- The entries of the map that a node stands for. -/
def mapEntries (number : Nat) : Construct (List (Key × Item)) := do
  match ((← get).graph.node number).form with
  | .mapping _ =>
    (← merge number).foldlM (fun done (k, v) => do
      let key ← key k
      return insertItem key (← build v) done) []
  | _ => throw .malformed

/-- The pair that a mapping of one entry stands for. -/
def pair (number : Nat) : Construct (Item × Item) := do
  match ((← get).graph.node number).form with
  | .mapping [(k, v)] => do
    let first ← build k
    return (first, ← build v)
  | _ => throw .malformed

/-- What the collection of a node and a kind holds. -/
def contents (number : Nat) (shape : Shape) : Construct Collection := do
  match shape, ((← get).graph.node number).form with
  | .list, .sequence items => return .list (← items.mapM build)
  | .pairs, .sequence items => return .pairs (← items.mapM pair)
  | .map, _ => return .map ((← mapEntries number).map fun (k, item) => (k.value, item))
  | .set, _ => return .set ((← mapEntries number).map fun (k, _) => k.value)
  | _, _ => throw .malformed

/-- The collections that have been met, after those of `done`. What they hold may let others be
met. -/
def collections : Nat → Array Collection → Construct (Array Collection)
  | 0, _ => throw .unsuitable
  | fuel + 1, done => do
    match (← get).met[done.size]? with
    | none => return done
    | some (number, shape) => collections fuel (done.push (← contents number shape))

/-- The document whose root is the node of a number. -/
def document (root : Nat) : Construct Document := do
  let item ← build root
  return ⟨← collections ((← get).graph.size + 1) #[], item⟩

end Construct

/-- The document that a text stands for. -/
def load (text : List Char) : Except Error Document := do
  match ← Graph.ofText? (Text.unixLines text) with
  | none => return ⟨#[], .scalar .null⟩
  | some (root, graph) =>
    (Construct.document root).run' { graph, built := Array.replicate graph.size none }

end FormulaBook.Yaml
