import FormulaBook.Value.Basic

/-!
# YAML documents

The collections of a document have numbers, and mention each other by them, so a collection may be
mentioned in many places and even inside itself. Its value is a tree, in which a collection that is
mentioned inside itself is cut off there.

* `Item`, `Collection`, `Document`: the collections of a document;
* `Views`: the collections whose value has been written out and has no cut;
* `Document.view`: the value of a collection, as it is seen from itself;
* `Document.outline`: the value of a document, in which the deeper parts are seen from themselves.
-/

namespace FormulaBook.Yaml

/-- A scalar, or the number of a collection. -/
inductive Item where
  | scalar (v : Value)
  | collection (number : Nat)

/-- What a collection holds. The keys of a map and the members of a set are scalars. -/
inductive Collection where
  | list (items : List Item)
  | pairs (items : List (Item × Item))
  | map (entries : List (Value × Item))
  | set (members : List Value)

/-- The collections of a document by their numbers, and its root. -/
structure Document where
  collections : Array Collection
  root : Item

/-- The values of collections by their numbers. Only those without a cut are held, as they are the
same wherever the collection is seen from. -/
abbrev Views := Array (Option Value)

/-- A value that is found among the views or added to them, and whether something in it is cut
off. -/
abbrev Viewing := StateM Views (Value × Bool)

namespace Collection

/-- The value of a collection whose items have the values that `see` finds. -/
def value (see : Item → Viewing) (c : Collection) : Viewing := do
  match c with
  | .list items =>
    let seen ← items.mapM see
    return (.list (seen.map (·.1)), seen.any (·.2))
  | .pairs items =>
    let seen ← items.mapM fun (a, b) => do
      let first ← see a
      let second ← see b
      return (Value.pair first.1 second.1, first.2 || second.2)
    return (.list (seen.map (·.1)), seen.any (·.2))
  | .map entries =>
    let seen ← entries.mapM fun (k, item) => do
      let (v, isCut) ← see item
      return ((k, v), isCut)
    return (.map (seen.map (·.1)), seen.any (·.2))
  | .set members => return (.set members, false)

/-- Whether a collection is a map. -/
def isMap : Collection → Bool
  | .map _ => true
  | _ => false

end Collection

namespace Document

/-- The value of a collection that has been seen before without a cut, or else the one that `look`
finds. -/
def remembered (number : Nat) (look : Viewing) : Viewing := do
  match (← get)[number]? with
  | some (some v) => return (v, false)
  | _ =>
    let (v, isCut) ← look
    if !isCut then modify (·.setIfInBounds number (some v))
    return (v, isCut)

/-- The value of an item inside the collections that are `open`, which are cut off in it. As each
collection around it is another one, `depth` need not be more than the number of collections. -/
def viewFrom (d : Document) : Nat → List Nat → Item → Viewing
  | _, _, .scalar v => return (v, false)
  | depth, around, .collection number =>
    match d.collections[number]? with
    | none => return (.null, false)
    | some c =>
      if around.contains number then return (.enclosing c.isMap, true)
      else
        match depth with
        | 0 => return (.enclosing c.isMap, true)
        | depth + 1 =>
          remembered number (c.value (d.viewFrom depth (number :: around)))

/-- The value of an item, as it is seen from itself. -/
def view (d : Document) (item : Item) : Viewing := d.viewFrom d.collections.size [] item

/-- The value of an item of which `levels` levels are written out, whether a collection in them is
mentioned inside itself or not. What is deeper is seen from itself. -/
def outlineFrom (d : Document) : Nat → Item → Viewing
  | 0, item => d.view item
  | _, .scalar v => return (v, false)
  | levels + 1, .collection number =>
    match d.collections[number]? with
    | none => return (.null, false)
    | some c => remembered number (c.value (d.outlineFrom levels))

/-- The value of a document of which `levels` levels are written out. -/
def outline (d : Document) (levels : Nat) : Value :=
  ((d.outlineFrom levels d.root).run (Array.replicate d.collections.size none)).1.1

end Document

end FormulaBook.Yaml
