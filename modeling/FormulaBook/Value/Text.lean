import FormulaBook.Value.Basic
import FormulaBook.Decimal.Numeral
import FormulaBook.Decimal.Shortest
import FormulaBook.Text.Quoted

/-!
# Values as text

* `Value.quoted`: a value in full, with quotation marks around texts, as messages show it;
* `Value.display`: the text that a value stands for where a text is wanted. A text stands for
  itself, and a day or a moment for its ISO form;
* `Value.text?`: that text, unless the value is too long or too deep to be written.
-/

namespace FormulaBook

/-- The quoted form of octets: a text of ASCII characters after the letter `b`. -/
def quoteBytes (octets : List UInt8) : String :=
  let chars := octets.map fun b => Char.ofNat b.toNat
  let m := Text.Quoted.mark chars
  let escape (c : Char) : List Char :=
    if c.toNat < 0x80 then Text.Quoted.escape m c else '\\' :: 'x' :: Text.hex 2 c.toNat
  String.ofList ('b' :: m :: chars.flatMap escape ++ [m])

namespace Value

mutual

/-- A value in full. -/
def quoted : Value → String
  | .null => "None"
  | .bool true => "True"
  | .bool false => "False"
  | .int n => toString n
  | .float x => Decimal.shortest x
  | .text s => Text.quote s
  | .bytes octets => quoteBytes octets
  | .date d => d.call
  | .moment m => m.call
  | .list items => "[" ++ ", ".intercalate (quotedItems items) ++ "]"
  | .pair a b => "(" ++ a.quoted ++ ", " ++ b.quoted ++ ")"
  | .map entries => "\x7b" ++ ", ".intercalate (quotedEntries entries) ++ "\x7d"
  | .set [] => "set()"
  | .set members => "\x7b" ++ ", ".intercalate (quotedItems members) ++ "\x7d"
  | .enclosing false => "[...]"
  | .enclosing true => "\x7b...\x7d"

/-- The items of a list in full. -/
def quotedItems : List Value → List String
  | [] => []
  | v :: rest => v.quoted :: quotedItems rest

/-- The entries of a map in full. -/
def quotedEntries : List (Value × Value) → List String
  | [] => []
  | (k, v) :: rest => (k.quoted ++ ": " ++ v.quoted) :: quotedEntries rest

end

/-- The text that a value stands for. -/
def display : Value → String
  | .text s => s
  | .date d => d.iso
  | .moment m => m.iso
  | v => v.quoted

@[simp] theorem display_text (s : String) : (Value.text s).display = s := rfl

/-! ### Values without a text -/

mutual

/-- Whether a value holds a whole number that is too long to be written. -/
def hasLongNumber : Value → Bool
  | .int n => Decimal.isLong n
  | .list items | .set items => itemsHaveLongNumber items
  | .pair a b => a.hasLongNumber || b.hasLongNumber
  | .map entries => entriesHaveLongNumber entries
  | .null | .bool _ | .float _ | .text _ | .bytes _ | .date _ | .moment _ | .enclosing _ => false

/-- Whether one of some values holds a number that is too long. -/
def itemsHaveLongNumber : List Value → Bool
  | [] => false
  | v :: rest => v.hasLongNumber || itemsHaveLongNumber rest

/-- Whether a key or value of some entries holds a number that is too long. -/
def entriesHaveLongNumber : List (Value × Value) → Bool
  | [] => false
  | (k, v) :: rest => k.hasLongNumber || v.hasLongNumber || entriesHaveLongNumber rest

end

mutual

/-- How many collections stand inside each other at most. -/
def depth : Value → Nat
  | .list items | .set items => itemsDepth items + 1
  | .pair a b => max a.depth b.depth + 1
  | .map entries => entriesDepth entries + 1
  | .null | .bool _ | .int _ | .float _ | .text _ | .bytes _ | .date _ | .moment _
  | .enclosing _ => 0

/-- The depth of the deepest of some values. -/
def itemsDepth : List Value → Nat
  | [] => 0
  | v :: rest => max v.depth (itemsDepth rest)

/-- The depth of the deepest value of some entries. -/
def entriesDepth : List (Value × Value) → Nat
  | [] => 0
  | (_, v) :: rest => max v.depth (entriesDepth rest)

end

/-- How many collections may stand inside each other in a value that is written. -/
def depthLimit : Nat := 980

/-- Why a value has no text. -/
inductive TextError where
  | longNumber
  | tooDeep
  deriving DecidableEq, Repr

/-- The text that a person sees. -/
def TextError.message : TextError → String
  | .longNumber => Decimal.longNumberMessage
  | .tooDeep => ""

/-- The text that a value stands for, if it can be written. -/
def text? (v : Value) : Except TextError String :=
  if depthLimit < v.depth then .error .tooDeep
  else if v.hasLongNumber then .error .longNumber
  else .ok v.display

end Value

end FormulaBook
