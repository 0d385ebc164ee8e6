import FormulaBook.Project.Workspace
import FormulaBook.Text.Uppercase
import FormulaBook.Token.Evaluate

/-!
# Sessions

A session is a project that is open: it answers from the workbook as it was last loaded, whatever
becomes of the files in the meantime.

* `Session`: the directory of the project and its workbook;
* `Session.start`, `Session.reload`: the workbook is loaded;
* `Session.info`, `Session.variableRows`, `Session.formulaRows`: what the project holds;
* `Session.execute`, `Session.evaluate`: the values of formulas and of other expressions.
-/

namespace FormulaBook

/-- The version that sessions report. -/
def engineVersion : String := "0.1.0"

/-- A project that is open, with its workbook as it was last loaded. -/
structure Session where
  directory : Path
  workbook : Workbook

/-- What a project is and how much it holds. -/
structure ProjectInfo where
  directory : Path
  version : String
  variableCount : Nat
  formulaCount : Nat

/-- A number, and the form in which it is shown. -/
structure Shown where
  value : Float
  display : String

/-- A variable, the names that its expression uses, and its value or the message of its error. -/
structure VariableRow where
  definition : Variable
  dependsOn : List String
  entry : Except String Shown

/-- A formula and the placeholders that it asks for. -/
structure FormulaRow where
  formula : Formula
  contextNames : List String

/-- The outcome for a formula that was asked for by a name. -/
structure FormulaAnswer where
  formula : String
  outcome : Except EvalError Shown

namespace Session

/-- Opens the project in a directory and attaches its log. -/
def start (directory : Path) : Action Session := do
  let workbook ← Workbook.load (← get).files directory
  Action.attach directory
  return { directory, workbook }

/-- The session after the workbook has been loaded again. -/
def reload (s : Session) : Action Session := do
  return { s with workbook := ← Workbook.load (← get).files s.directory }

/-- What the project is and how much it holds. -/
def info (s : Session) : ProjectInfo :=
  ⟨s.directory, engineVersion, s.workbook.vars.length, s.workbook.formulas.length⟩

/-- The number with its shown form. -/
def shown (s : Session) (x : Float) : Except Failure Shown :=
  (s.workbook.format x).map fun display => ⟨x, display⟩

/-- The row of a variable, whose value or error is among the results. -/
def variableRow (s : Session) (r : Resolution) (v : Variable) : Except Failure VariableRow := do
  match r.values.lookup v.name with
  | some x => return ⟨v, v.dependencies, .ok (← s.shown x)⟩
  | none => return ⟨v, v.dependencies, .error ((r.errors.lookup v.name).getD "")⟩

/-- The variables of the project, in the order of their definitions. -/
def variableRows (s : Session) : Action (List VariableRow) := do
  let r ← Action.ofTraced (s.workbook.resolve ·)
  s.workbook.vars.mapM fun v => s.variableRow r v

/-- The formulas of the project, in the order of their names. -/
def formulaRows (s : Session) : Except Failure (List FormulaRow) :=
  s.workbook.sortedFormulas.mapM fun f =>
    (s.workbook.contextNames f.name).map fun names => ⟨f, names⟩

/-- The value of the formula with a name, or the error of its expression. -/
def execute (s : Session) (name : String) (context : Context) : Action FormulaAnswer := do
  let run : Action Float := Action.ofTraced (s.workbook.execute · name context)
  tryCatch
    (do
      let shown ← s.shown (← run)
      return ⟨Text.upper name, .ok shown⟩)
    fun
      | .evaluation e => return ⟨Text.upper name, .error e⟩
      | e => throw e

/-- The event for an expression whose value is shown as `shown`. -/
def evaluatedEvent (now text shown : String) : Event :=
  { time := now, level := .info, type := .expressionEvaluated, message := text ++ " = " ++ shown
    context := [("expression", .text text)] }

/-- The value of an expression of numbers, or the error of the expression. -/
def evaluate (s : Session) (text : String) : Action (Except EvalError Shown) := do
  match FormulaBook.evaluate text with
  | .error e => return .error e
  | .ok x =>
    let shown ← displayed x
    Action.report (evaluatedEvent (← get).now text shown)
    return .ok (← s.shown x)

end Session

end FormulaBook
