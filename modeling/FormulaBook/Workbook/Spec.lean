import FormulaBook.Formula
import FormulaBook.Validation
import FormulaBook.Variable

/-!
# Blocks of definitions

The variables and formulas of a workbook as its file gives them: two lists of maps.

* `SpecError`: why a block is refused;
* `readVariables`, `readFormulas`: the definitions of a block.
-/

namespace FormulaBook

/-- The name of the block that holds the definitions of one sort. -/
def DefinitionSort.block : DefinitionSort → String
  | .variable => "variables"
  | .formula => "formulas"

/-- Why a block of definitions is refused. -/
inductive SpecError where
  | notList (sort : DefinitionSort)
  | notMapping (sort : DefinitionSort) (index : Nat)
  | unknownKind (index : Nat) (cause : VariableKind.ParseError)
  | unwritable (cause : Value.TextError)

/-- The text that a person sees. -/
def SpecError.message : SpecError → String
  | .notList .variable =>
    "'variables' must be a list of \x7bname, kind, expression\x7d entries"
  | .notList .formula => "'formulas' must be a list of \x7bname, expression\x7d entries"
  | .notMapping sort index => sort.block ++ s!"[{index}] must be a mapping"
  | .unknownKind index cause => s!"variables[{index}]: " ++ cause.message
  | .unwritable cause => cause.message

/-- Whether a block is refused because a value in it is too deep to be written. -/
def SpecError.isTooDeep : SpecError → Bool
  | .unknownKind _ (.unwritable .tooDeep) | .unwritable .tooDeep => true
  | _ => false

/-- The text of a field of an entry; an absent field is empty. -/
def entryText (entry : Value) (field : String) : Except SpecError String :=
  ((entry.get? field).getD (.text "")).text?.mapError .unwritable

/-- The variable of an entry; one without a kind is a constant. -/
def readVariable (index : Nat) (entry : Value) : Except SpecError Variable :=
  match entry with
  | .map _ => do
    let stated := (entry.get? "kind").getD (.text "constant")
    let kind ← (VariableKind.parse stated).mapError (.unknownKind index)
    let name ← entryText entry "name"
    return ⟨normalizeName name, .known kind, ← entryText entry "expression"⟩
  | _ => .error (.notMapping .variable index)

/-- The formula of an entry. -/
def readFormula (index : Nat) (entry : Value) : Except SpecError Formula :=
  match entry with
  | .map _ => do
    let name ← entryText entry "name"
    return ⟨normalizeName name, ← entryText entry "expression"⟩
  | _ => .error (.notMapping .formula index)

/-- The definitions of a block, each read with its place in the block. A block that is null has
none. -/
def readBlock {α : Type} (sort : DefinitionSort) (read : Nat → Value → Except SpecError α)
    (block : Value) : Except SpecError (List α) :=
  match block with
  | .null => .ok []
  | .list items => items.zipIdx.mapM fun (entry, index) => read index entry
  | _ => .error (.notList sort)

/-- The variables of a block. -/
def readVariables (block : Value) : Except SpecError (List Variable) :=
  readBlock .variable readVariable block

/-- The formulas of a block. -/
def readFormulas (block : Value) : Except SpecError (List Formula) :=
  readBlock .formula readFormula block

end FormulaBook
