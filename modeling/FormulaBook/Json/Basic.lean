import FormulaBook.Text.CodePoint
import FormulaBook.Value.Basic

/-!
# JSON values

The values of the event log and of requests. An object keeps its fields in order and has one field
for each name.

* `Json`: the type; whole numbers and doubles are told apart;
* `Json.setField`: the fields of an object with one field set;
* `Json.field?`: a field of an object;
* `Json.isFalsy`: the values that count as absent;
* `Json.toValue`: the same value among those of a definitions file;
* `Json.holdsHalf`: the values with a text that has no form in octets.
-/

namespace FormulaBook

/-- A JSON value. -/
inductive Json where
  | null
  | bool (b : Bool)
  | int (n : Int)
  | float (x : Float)
  | text (s : String)
  | list (items : List Json)
  | object (fields : List (String × Json))
  deriving Inhabited

namespace Json

/-- Fields with `value` under `name`: in the place of the field that is there, or at the end. -/
def setField (name : String) (value : Json) : List (String × Json) → List (String × Json)
  | [] => [(name, value)]
  | (n, v) :: rest =>
    if n == name then (n, value) :: rest else (n, v) :: setField name value rest

/-- A field of an object. -/
def field? (j : Json) (name : String) : Option Json :=
  match j with
  | .object fields => fields.lookup name
  | _ => none

/-- The values that count as absent. -/
def isFalsy : Json → Bool
  | .null => true
  | .bool b => !b
  | .int n => n == 0
  | .float x => x == 0
  | .text s => s == ""
  | .list items => items.isEmpty
  | .object fields => fields.isEmpty

mutual

/-- A JSON value as a value of a definitions file. -/
def toValue : Json → Value
  | .null => .null
  | .bool b => .bool b
  | .int n => .int n
  | .float x => .float x
  | .text s => .text s
  | .list items => .list (itemsToValues items)
  | .object fields => .map (fieldsToEntries fields)

/-- The items of a list as values. -/
def itemsToValues : List Json → List Value
  | [] => []
  | j :: rest => j.toValue :: itemsToValues rest

/-- The fields of an object as entries. -/
def fieldsToEntries : List (String × Json) → List (Value × Value)
  | [] => []
  | (name, j) :: rest => (.text name, j.toValue) :: fieldsToEntries rest

end

mutual

/-- Whether a text in a value holds half of a pair. -/
def holdsHalf : Json → Bool
  | .text s => Text.holdsHalf s
  | .list items => itemsHoldHalf items
  | .object fields => fieldsHoldHalf fields
  | _ => false

/-- Whether a text in the items of a list holds half of a pair. -/
def itemsHoldHalf : List Json → Bool
  | [] => false
  | j :: rest => j.holdsHalf || itemsHoldHalf rest

/-- Whether a name or a text in the fields of an object holds half of a pair. -/
def fieldsHoldHalf : List (String × Json) → Bool
  | [] => false
  | (name, j) :: rest => Text.holdsHalf name || j.holdsHalf || fieldsHoldHalf rest

end

end Json

end FormulaBook
