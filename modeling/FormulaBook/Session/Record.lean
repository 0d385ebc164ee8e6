import FormulaBook.Json.Basic
import FormulaBook.Session.Basic

/-!
# Answers as JSON

The JSON objects in which the answers of a session are given.

* `ProjectInfo.toJson`, `VariableRow.toJson`, `FormulaRow.toJson`, `FormulaAnswer.toJson`: the
  objects;
* `errorFields`, `Shown.fields`: the fields that they share.
-/

namespace FormulaBook

/-- The fields of an error. -/
def errorFields (e : EvalError) : List (String × Json) :=
  [("error", .text e.message), ("kind", .text e.kind.name)]

/-- The fields of a result. -/
def Shown.fields (s : Shown) : List (String × Json) :=
  [("result", .float s.value), ("display", .text s.display)]

/-- The fields of an outcome. -/
def outcomeFields : Except EvalError Shown → List (String × Json)
  | .ok s => s.fields
  | .error e => errorFields e

/-- What a project is, as a JSON object. -/
def ProjectInfo.toJson (i : ProjectInfo) : Json :=
  .object
    [("project_dir", .text i.directory.text), ("engine_version", .text i.version),
      ("variable_count", .int i.variableCount), ("formula_count", .int i.formulaCount)]

/-- The fields of the value or error of a variable. -/
def VariableRow.entryFields (r : VariableRow) : List (String × Json) :=
  match r.entry with
  | .ok s => [("value", .float s.value), ("display", .text s.display)]
  | .error message => [("error", .text message)]

/-- A variable as a JSON object. -/
def VariableRow.toJson (r : VariableRow) : Json :=
  .object
    ([("name", .text r.definition.name), ("kind", .text r.definition.kind.name),
      ("expression", .text r.definition.expression),
      ("depends_on", .list (r.dependsOn.map .text))] ++ r.entryFields)

/-- A formula as a JSON object. -/
def FormulaRow.toJson (r : FormulaRow) : Json :=
  .object
    [("name", .text r.formula.name), ("expression", .text r.formula.expression),
      ("context_names", .list (r.contextNames.map .text))]

/-- The outcome for a formula as a JSON object. -/
def FormulaAnswer.toJson (a : FormulaAnswer) : Json :=
  .object (("formula", .text a.formula) :: outcomeFields a.outcome)

end FormulaBook
