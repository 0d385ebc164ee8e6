import FormulaBook.Token.Lexer
import FormulaBook.Text.Uppercase
import FormulaBook.Value.Text

/-!
# Variables

A variable is a constant, whose expression is a number, or dynamic, whose expression refers to
other variables.

* `VariableKind`: the two kinds, with `VariableKind.parse`;
* `StatedKind`: the kind that a definition states, perhaps as a text that is still to be read;
* `Variable`: a definition;
* `Variable.dependencies`: the names that a definition refers to;
* `normalizeName`: a name as it is stored.
-/

namespace FormulaBook

open Text

/-- The kinds of variable. -/
inductive VariableKind where
  | constant
  | dynamic
  deriving DecidableEq, Repr

namespace VariableKind

/-- The name of a kind in capital letters. -/
def name : VariableKind → String
  | .constant => "CONSTANT"
  | .dynamic => "DYNAMIC"

/-- The name of a kind in small letters. -/
def label : VariableKind → String
  | .constant => "constant"
  | .dynamic => "dynamic"

/-- The kind that a text names, in letters of either case and between blanks. -/
def ofText? (s : String) : Option VariableKind :=
  match upper (trim s) with
  | "CONSTANT" => some .constant
  | "DYNAMIC" => some .dynamic
  | _ => none

/-- Why a value names no kind: its text is not the name of one, or it has no text. -/
inductive ParseError where
  | unknown (raw : Value)
  | unwritable (cause : Value.TextError)

/-- The text that a person sees. -/
def ParseError.message : ParseError → String
  | .unknown raw => unknownKindMessage raw.quoted
  | .unwritable cause => cause.message

/-- The kind that a value names by its text. -/
def parse (raw : Value) : Except ParseError VariableKind :=
  match raw.text? with
  | .error cause => .error (.unwritable cause)
  | .ok text =>
    match ofText? text with
    | some kind => .ok kind
    | none => .error (.unknown raw)

end VariableKind

/-- The kind that a definition states. A text is read when the variable is resolved; until then it is
not the kind itself, not even if it is the very name of one. -/
inductive StatedKind where
  | known (kind : VariableKind)
  | text (s : String)
  deriving DecidableEq, Repr

/-- The kind that a statement comes to. -/
def StatedKind.parse : StatedKind → Except Malformation VariableKind
  | .known kind => .ok kind
  | .text s => (VariableKind.ofText? s).elim (.error (.kind (quote s))) .ok

/-- The name of the kind, or the text that is to be read. -/
def StatedKind.name : StatedKind → String
  | .known kind => kind.name
  | .text s => s

/-- The definition of a variable. -/
structure Variable where
  name : String
  kind : StatedKind
  expression : String
  deriving DecidableEq, Repr

/-- The names among tokens, each once, from left to right. -/
def identifierNames (tokens : List Token) : List String :=
  ((tokens.filter (·.kind == .identifier)).map (·.text)).eraseDups

namespace Variable

/-- Whether the definition bears the name of the constant kind, be it the kind itself or a text that
is not read yet. -/
def isConstant (v : Variable) : Bool := v.kind.name == VariableKind.constant.name

/-- The names that a definition refers to, each once, from left to right. A constant refers to
none, and neither does an expression that is no row of tokens. -/
def dependencies (v : Variable) : List String :=
  if v.isConstant then []
  else
    match tokenize v.expression with
    | .ok tokens => identifierNames tokens
    | .error _ => []

end Variable

/-- A name as it is stored: in capital letters, without blanks around it. -/
def normalizeName (s : String) : String := upper (trim s)

end FormulaBook
