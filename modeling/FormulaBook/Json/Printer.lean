import FormulaBook.Json.Basic
import FormulaBook.Decimal.Shortest
import FormulaBook.Text.CodePoint
import FormulaBook.Text.Quoted

/-!
# Writing JSON

A value is written in ASCII on one line, or indented by two blanks for each level.

* `Json.escape`, `Json.escapeCode`: a character and a code point of a text; all but printable ASCII
  is written as UTF-16 units;
* `Json.render`: the form on one line, with a blank after each comma and colon;
* `Json.renderIndented`: the form on many lines;
* `Json.sorted`: the same value with the fields of each object in the order of their names.
-/

namespace FormulaBook.Json

/-- A character of a text in its written form. -/
def escape (c : Char) : List Char :=
  if c == '"' || c == '\\' then ['\\', c]
  else if c == '\n' then ['\\', 'n']
  else if c == '\r' then ['\\', 'r']
  else if c == '\t' then ['\\', 't']
  else if c == '\x0C' then ['\\', 'f']
  else if c == '\x08' then ['\\', 'b']
  else if ' ' ≤ c && c ≤ '~' then [c]
  else if c.toNat < 0x10000 then Text.unitEscape c.toNat
  else
    let n := c.toNat - 0x10000
    Text.unitEscape (0xD800 + n / 0x400) ++ Text.unitEscape (0xDC00 + n % 0x400)

/-- A code point of a text in its written form. -/
def escapeCode (code : Nat) : List Char :=
  if Text.isHalf code then Text.unitEscape code else escape (Char.ofNat code)

/-- A text between double quotes. -/
def renderText (s : String) : String :=
  String.ofList ('"' :: (Text.codes s).flatMap escapeCode ++ ['"'])

/-- The written form of a double: the shortest one, and words for what is no number. -/
def numberLayout : Decimal.Layout :=
  { Decimal.plain with infinity := "Infinity", notANumber := "NaN" }

/-- A double. -/
def renderFloat (x : Float) : String := numberLayout.text Decimal.Binary.shortest x

/-! ### One line -/

mutual

/-- A value on one line. -/
def render : Json → String
  | .null => "null"
  | .bool true => "true"
  | .bool false => "false"
  | .int n => toString n
  | .float x => renderFloat x
  | .text s => renderText s
  | .list items => "[" ++ ", ".intercalate (renderItems items) ++ "]"
  | .object fields => "\x7b" ++ ", ".intercalate (renderFields fields) ++ "\x7d"

/-- The items of a list, each on one line. -/
def renderItems : List Json → List String
  | [] => []
  | j :: rest => j.render :: renderItems rest

/-- The fields of an object, each on one line. -/
def renderFields : List (String × Json) → List String
  | [] => []
  | (name, j) :: rest => (renderText name ++ ": " ++ j.render) :: renderFields rest

end

/-! ### Many lines -/

/-- Parts between two brackets, each part on a line of its own at the given level. -/
def bracketed (level : Nat) (first last : String) (parts : List String) : String :=
  let line (level : Nat) : String := "\n" ++ String.ofList (List.replicate (2 * level) ' ')
  if parts.isEmpty then first ++ last
  else
    first ++ line (level + 1) ++ ("," ++ line (level + 1)).intercalate parts ++ line level ++ last

mutual

/-- A value at the given level of indentation. -/
def renderIndented (level : Nat) : Json → String
  | .list items => bracketed level "[" "]" (indentedItems (level + 1) items)
  | .object fields => bracketed level "\x7b" "\x7d" (indentedFields (level + 1) fields)
  | .null => render .null
  | .bool b => render (.bool b)
  | .int n => render (.int n)
  | .float x => render (.float x)
  | .text s => render (.text s)

/-- The items of a list at the given level. -/
def indentedItems (level : Nat) : List Json → List String
  | [] => []
  | j :: rest => renderIndented level j :: indentedItems level rest

/-- The fields of an object at the given level. -/
def indentedFields (level : Nat) : List (String × Json) → List String
  | [] => []
  | (name, j) :: rest =>
    (renderText name ++ ": " ++ renderIndented level j) :: indentedFields level rest

end

/-! ### Order of fields -/

mutual

/-- A value with the fields of each object ordered by name. -/
def sorted : Json → Json
  | .list items => .list (sortedItems items)
  | .object fields => .object ((sortedFields fields).mergeSort fun a b => Text.precedes a.1 b.1)
  | .null => .null
  | .bool b => .bool b
  | .int n => .int n
  | .float x => .float x
  | .text s => .text s

/-- The items of a list, each with its fields in order. -/
def sortedItems : List Json → List Json
  | [] => []
  | j :: rest => j.sorted :: sortedItems rest

/-- Fields whose values have their fields in order. -/
def sortedFields : List (String × Json) → List (String × Json)
  | [] => []
  | (name, j) :: rest => (name, j.sorted) :: sortedFields rest

end

end FormulaBook.Json
