import FormulaBook.Calendar
import FormulaBook.Decimal.Binary

/-!
# Values

The values that a definitions file can hold. A map keeps its entries in the order in which their
keys first appeared, and holds one entry for each key.

* `Value`: the type;
* `Value.sameKey`: when two keys of a map are one;
* `Value.insertEntry`: a map with an entry set;
* `Value.get?`: the entry of a map under a text;
* `Value.isEmpty`: the values that count as absent.
-/

namespace FormulaBook

/-- A value of a definitions file. -/
inductive Value where
  | null
  | bool (b : Bool)
  | int (n : Int)
  | float (x : Float)
  | text (s : String)
  | bytes (octets : List UInt8)
  | date (d : Date)
  | moment (m : Moment)
  | list (items : List Value)
  | pair (first second : Value)
  | map (entries : List (Value × Value))
  | set (members : List Value)
  /-- The list or map that this value stands in, once more. -/
  | enclosing (isMap : Bool)
  deriving Inhabited

namespace Value

/-- The whole number that a value is equal to; truth values are equal to one and zero. -/
def whole? : Value → Option Int
  | .bool b => some (if b then 1 else 0)
  | .int n => some n
  | .float x => Decimal.integer? x
  | _ => none

/-- Whether two keys of a map are the same key. Numbers are the same if they are equal, whether
they are whole numbers, doubles or truth values; moments, if they are the same in universal time. -/
def sameKey : Value → Value → Bool
  | .null, .null => true
  | .text s, .text t => s == t
  | .bytes s, .bytes t => s == t
  | .date d, .date e => d == e
  | .moment m, .moment n => m.isSame n
  | .float x, .float y => x == y
  | a, b => a.whole?.isSome && a.whole? == b.whole?

/-- The entries of a map with `value` under `key`: in the place of the entry that is there, or at
the end. -/
def insertEntry (key value : Value) : List (Value × Value) → List (Value × Value)
  | [] => [(key, value)]
  | (k, v) :: rest =>
    if sameKey k key then (k, value) :: rest else (k, v) :: insertEntry key value rest

/-- The entry of a map under a text. -/
def get? (v : Value) (key : String) : Option Value :=
  match v with
  | .map entries =>
    (entries.find? fun
      | (.text k, _) => k == key
      | _ => false).map (·.2)
  | _ => none

/-- Whether a value is a double that is no number. -/
def isNaN : Value → Bool
  | .float x => x.isNaN
  | _ => false

/-- The values that count as absent where a file may be empty. -/
def isEmpty : Value → Bool
  | .null => true
  | .bool b => !b
  | .int n => n == 0
  | .float x => x == 0
  | .text s => s == ""
  | .bytes octets => octets.isEmpty
  | .list items => items.isEmpty
  | .map entries => entries.isEmpty
  | .set members => members.isEmpty
  | .date _ | .moment _ | .pair _ _ | .enclosing _ => false

end Value

end FormulaBook
