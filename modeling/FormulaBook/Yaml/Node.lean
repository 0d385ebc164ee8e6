import FormulaBook.Yaml.ScalarType
import FormulaBook.Yaml.Token

/-!
# YAML nodes

The scalars and collections that a YAML text holds. Each of them is a node with a number, and a
collection holds the numbers of its members, so an alias is a second mention of a number. A
collection gets its number before its members do, and may be mentioned among them.

* `Node`, `Graph`: the nodes of a text;
* `Compose`: a computation on the state of a composition, `Composition`;
* `node`: the node at which a text stands;
* `Graph.ofText?`: the nodes of the one document of a text.
-/

namespace FormulaBook.Yaml

/-- The text of a scalar, or the numbers of the members of a collection. -/
inductive Form where
  | scalar (text : String)
  | sequence (items : List Nat)
  | mapping (entries : List (Nat × Nat))

/-- A scalar or a collection, with its type. -/
structure Node where
  tag : Tag
  form : Form

/-- The nodes of a text by their numbers. -/
abbrev Graph := Array Node

/-- The node that stands where nothing is written. -/
def Node.absent : Node := ⟨.null, .scalar ""⟩

/-- What has been composed of a text that is read by `scan`: the nodes, the numbers of those that
have names, and what the handles of tags stand for. -/
structure Composition where
  scan : Scan
  nodes : Graph := #[]
  anchors : List (String × Nat) := []
  handles : List (String × String) := []

/-- A computation that reads tokens and adds nodes. -/
abbrev Compose := StateT Composition (Except Error)

namespace Compose

/-- The next token. -/
def peek : Compose Token := do
  let s ← get
  let (t, scan) ← s.scan.peek
  set { s with scan }
  return t

/-- Passes the next token. -/
def skip : Compose Unit := modify fun s => { s with scan := s.scan.next }

/-- Whether the next token is one of some. -/
def isAt (tokens : List Token) : Compose Bool := return tokens.contains (← peek)

/-- Passes a token that must come next. -/
def expect (t : Token) : Compose Unit := do
  if (← peek) == t then skip else throw .malformed

/-- Adds a node and gives its number. -/
def add (n : Node) : Compose Nat :=
  modifyGet fun s => (s.nodes.size, { s with nodes := s.nodes.push n })

/-- Gives a name to the node of a number, if there is a name. -/
def define (anchor : Option String) (number : Nat) : Compose Unit :=
  match anchor with
  | some name => modify fun s => { s with anchors := (name, number) :: s.anchors }
  | none => pure ()

/-- Sets what the node of a number holds. -/
def fill (number : Nat) (form : Form) : Compose Unit :=
  modify fun s => { s with nodes := s.nodes.modify number ({ · with form }) }

/-- The full name of a tag. -/
def tagName (handle : Option String) (rest : String) : Compose String := do
  match handle with
  | none => return rest
  | some h =>
    match (← get).handles.lookup h with
    | some start => return start ++ rest
    | none => throw .malformed

/-- The anchor before a node, if one stands here. -/
def anchor? : Compose (Option String) := do
  match ← peek with
  | .anchor name => do
    skip
    return some name
  | _ => return none

/-- The handle and the rest of the tag before a node, if one stands here. -/
def tag? : Compose (Option (Option String × String)) := do
  match ← peek with
  | .tag handle rest => do
    skip
    return some (handle, rest)
  | _ => return none

/-- The anchor and the full name of the tag before a node, in either order. -/
def properties : Compose (Option String × Option String) := do
  let first ← anchor?
  let tag ← tag?
  let anchor ← if first.isNone && tag.isSome then anchor? else pure first
  match tag with
  | none => return (anchor, none)
  | some (handle, rest) => return (anchor, some (← tagName handle rest))

/-- Stops if there is a name that a node has. -/
def checkUnused (anchor : Option String) : Compose Unit := do
  let used := (← get).anchors
  if anchor.any fun name => (used.lookup name).isSome then throw .malformed

end Compose

/-- The name of a tag that leaves the type to the form of the node. -/
def openTag : String := "!"

/-- The type of a collection with a tag. -/
def collectionTag (tag : Option String) (absent : Tag) : Tag :=
  match tag with
  | none => absent
  | some name => if name == openTag then absent else Tag.ofName name

/-- The type of a scalar with a tag. -/
def scalarTag (tag : Option String) (text : String) (isPlain : Bool) : Tag :=
  match tag with
  | none => if isPlain then implicitTag text else .str
  | some name => if name == openTag then implicitTag text else Tag.ofName name

/-- Where a node stands: in a flow collection, in a block, or as the value of a block mapping, where
the entries of a sequence need no indentation. -/
inductive Place where
  | flow
  | block
  | mappingValue
  deriving DecidableEq, Repr

open Compose

/-- A new scalar. -/
def scalar (anchor tag : Option String) (text : String) (isPlain : Bool) : Compose Nat := do
  checkUnused anchor
  let number ← add ⟨scalarTag tag text isPlain, .scalar text⟩
  define anchor number
  return number

/-- A new sequence, whose items are read after it has its number. -/
def sequence (anchor tag : Option String) (items : Compose (List Nat)) : Compose Nat := do
  checkUnused anchor
  let number ← add ⟨collectionTag tag .seq, .sequence []⟩
  define anchor number
  fill number (.sequence (← items))
  return number

/-- A new mapping, whose entries are read after it has its number. -/
def mapping (anchor tag : Option String) (entries : Compose (List (Nat × Nat))) : Compose Nat := do
  checkUnused anchor
  let number ← add ⟨collectionTag tag .map, .mapping []⟩
  define anchor number
  fill number (.mapping (← entries))
  return number

mutual

/-- The node that stands here, where `depth` more nodes may stand inside each other. -/
def node : Nat → Nat → Place → Compose Nat
  | 0, _, _ | _, 0, _ => throw .unsuitable
  | fuel + 1, depth + 1, place => do
    match ← peek with
    | .alias name => do
      skip
      match (← get).anchors.lookup name with
      | some number => return number
      | none => throw .malformed
    | _ => do
      let (anchor, tag) ← properties
      let t ← peek
      match t with
      | .scalar text isPlain => do
        skip
        scalar anchor tag text isPlain
      | .flowSequenceStart =>
        sequence anchor tag (do skip; flowItems fuel depth true [])
      | .flowMappingStart =>
        mapping anchor tag (do skip; flowEntries fuel depth true [])
      | _ =>
        if t == .entry && place == .mappingValue then
          sequence anchor tag (flushItems fuel depth [])
        else if t == .sequenceStart && place != .flow then
          sequence anchor tag (do skip; blockItems fuel depth [])
        else if t == .mappingStart && place != .flow then
          mapping anchor tag (do skip; blockEntries fuel depth [])
        else if anchor.isNone && tag.isNone then throw .malformed
        else scalar anchor tag "" true

/-- The node that stands here, or the absent one if a token that `ends` it comes next. -/
def nodeOr : Nat → Nat → Place → List Token → Compose Nat
  | 0, _, _, _ => throw .unsuitable
  | fuel + 1, depth, place, ends => do
    if ← isAt ends then add .absent else node fuel depth place

/-- The value of an entry: the node after the token for a value, or the absent one where that token
does not stand. -/
def valueOr : Nat → Nat → Place → List Token → Compose Nat
  | 0, _, _, _ => throw .unsuitable
  | fuel + 1, depth, place, ends => do
    if ← isAt [.value] then
      skip
      nodeOr fuel depth place ends
    else add .absent

/-- The entries of a sequence in a block after `done`, which are held last first, and its end. -/
def blockItems : Nat → Nat → List Nat → Compose (List Nat)
  | 0, _, _ => throw .unsuitable
  | fuel + 1, depth, done => do
    if ← isAt [.entry] then
      skip
      let item ← nodeOr fuel depth .block [.entry, .blockEnd]
      blockItems fuel depth (item :: done)
    else
      expect .blockEnd
      return done.reverse

/-- The entries of a sequence that is not indented, after `done`. -/
def flushItems : Nat → Nat → List Nat → Compose (List Nat)
  | 0, _, _ => throw .unsuitable
  | fuel + 1, depth, done => do
    if ← isAt [.entry] then
      skip
      let item ← nodeOr fuel depth .block [.entry, .key, .value, .blockEnd]
      flushItems fuel depth (item :: done)
    else return done.reverse

/-- The entries of a mapping in a block after `done`, and its end. -/
def blockEntries : Nat → Nat → List (Nat × Nat) → Compose (List (Nat × Nat))
  | 0, _, _ => throw .unsuitable
  | fuel + 1, depth, done => do
    if ← isAt [.key] then
      skip
      let k ← nodeOr fuel depth .mappingValue [.key, .value, .blockEnd]
      let v ← valueOr fuel depth .mappingValue [.key, .value, .blockEnd]
      blockEntries fuel depth ((k, v) :: done)
    else
      expect .blockEnd
      return done.reverse

/-- The items of a flow sequence after `done`, and its end. A key among them makes a mapping of one
entry. -/
def flowItems : Nat → Nat → Bool → List Nat → Compose (List Nat)
  | 0, _, _, _ => throw .unsuitable
  | fuel + 1, depth, isFirst, done => do
    if !(isFirst || (← isAt [.flowSequenceEnd])) then expect .flowEntry
    match ← peek with
    | .flowSequenceEnd => do
      skip
      return done.reverse
    | .key => do
      let item ← flowPair fuel depth
      flowItems fuel depth false (item :: done)
    | _ => do
      let item ← node fuel depth .flow
      flowItems fuel depth false (item :: done)

/-- The mapping of one entry whose key stands here among the items of a flow sequence. -/
def flowPair : Nat → Nat → Compose Nat
  | 0, _ | _, 0 => throw .unsuitable
  | fuel + 1, depth + 1 =>
    mapping none none do
      skip
      let k ← nodeOr fuel depth .flow [.value, .flowEntry, .flowSequenceEnd]
      let v ← valueOr fuel depth .flow [.flowEntry, .flowSequenceEnd]
      return [(k, v)]

/-- The entries of a flow mapping after `done`, and its end. -/
def flowEntries : Nat → Nat → Bool → List (Nat × Nat) → Compose (List (Nat × Nat))
  | 0, _, _, _ => throw .unsuitable
  | fuel + 1, depth, isFirst, done => do
    if !(isFirst || (← isAt [.flowMappingEnd])) then expect .flowEntry
    match ← peek with
    | .flowMappingEnd => do
      skip
      return done.reverse
    | .key => do
      skip
      let k ← nodeOr fuel depth .flow [.value, .flowEntry, .flowMappingEnd]
      let v ← valueOr fuel depth .flow [.flowEntry, .flowMappingEnd]
      flowEntries fuel depth false ((k, v) :: done)
    | _ => do
      let k ← node fuel depth .flow
      let v ← add .absent
      flowEntries fuel depth false ((k, v) :: done)

end

/-! ### Documents -/

/-- How many nodes may stand inside each other. -/
def nestingLimit : Nat := 480

/-- What the handles stand for where no directive says otherwise. -/
def defaultHandles : List (String × String) := [("!", "!"), ("!!", plainTypes)]

/-- The directives before a document. Each may be given once, and the version must be the first
major one. -/
def directives : Nat → Bool → List (String × String) → Compose (List (String × String))
  | 0, _, _ => throw .unsuitable
  | fuel + 1, versioned, handles => do
    match ← peek with
    | .version major => do
      skip
      if versioned || major != 1 then throw .malformed
      directives fuel true handles
    | .tagPrefix handle start => do
      skip
      if (handles.lookup handle).isSome then throw .malformed
      directives fuel versioned ((handle, start) :: handles)
    | .reserved => do
      skip
      directives fuel versioned handles
    | _ => return handles

/-- The directives before a document, and the mark of its beginning. -/
def documentStart (fuel : Nat) : Compose Unit := do
  let handles ← directives fuel false []
  expect .documentStart
  modify fun s => { s with handles := handles ++ defaultHandles }

/-- Whether a token begins a directive. -/
def Token.isDirective : Token → Bool
  | .version _ | .tagPrefix _ _ | .reserved => true
  | _ => false

/-- Passes marks of the end of a document. -/
def skipEnds : Nat → Compose Unit
  | 0 => throw .unsuitable
  | fuel + 1 => do
    if ← isAt [.documentEnd] then
      skip
      skipEnds fuel

/-- The root of the one document of a text, or none if the text holds no document. After it nothing
may come, but the beginning of another document is read before it is refused. -/
def document? (fuel : Nat) : Compose (Option Nat) := do
  let first ← peek
  if first == .streamEnd then return none
  modify fun s => { s with handles := defaultHandles }
  let isMarked := first.isDirective || first == .documentStart
  if isMarked then documentStart fuel
  let t ← peek
  let isEmpty := t.isDirective || [.documentStart, .documentEnd, .streamEnd].contains t
  let root ← if isMarked && isEmpty then add .absent else node fuel nestingLimit .block
  skipEnds fuel
  if ← isAt [.streamEnd] then return some root
  documentStart fuel
  throw .malformed

/-- The nodes of the one document of a text, with the number of its root. -/
def Graph.ofText? (text : List Char) : Except Error (Option (Nat × Graph)) := do
  let scan ← Scan.ofText text
  let (root, s) ← (document? (8 * scan.size + 16)).run { scan }
  return root.map fun number => (number, s.nodes)

end FormulaBook.Yaml
