import FormulaBook.Project.Config
import FormulaBook.Resolution.Basic

/-!
# Workbooks

The variables and formulas of a project, from the file `workbook.yaml`. A run of a workbook reports
what happens as events.

* `Workbook`: the definitions, with the settings under which they were loaded;
* `Workbook.load`: the workbook of a project;
* `Workbook.sortedFormulas`, `Workbook.formula?`, `Workbook.contextNames`: the formulas;
* `Traced`: an outcome with the events on the way to it;
* `Workbook.resolve`, `Workbook.execute`: the runs of a workbook.
-/

namespace FormulaBook

/-- The definitions of a project. -/
structure Workbook where
  config : Config
  vars : List Variable
  formulas : List Formula

/-- An outcome, and the events that were reported on the way to it, the earliest first. -/
structure Traced (α : Type) where
  outcome : Except Failure α
  events : List Event := []

namespace Workbook

/-- The file that holds the definitions of the project in a directory. -/
def path (directory : Path) : Path := directory ++ ["workbook.yaml"]

/-- The workbook of the project in a directory. Where no settings are given, those of the project
are loaded. If a definition is invalid, the workbook is refused unless the settings are lenient. -/
def load (files : Files) (directory : Path) (config : Option Config := none) :
    Except Failure Workbook := do
  if !files.has (path directory) then .error (.workbookMissing directory)
  let entries ← loadFile files (path directory)
  let config ← match config with
    | some c => pure c
    | none => Config.load files directory
  let block (sort : DefinitionSort) : Value :=
    ((Value.map entries).get? sort.block).getD .null
  let vars ← (readVariables (block .variable)).mapError .spec
  let formulas ← (readFormulas (block .formula)).mapError .spec
  let problems := variableProblems vars ++ formulaProblems formulas
  if !problems.isEmpty && config.isStrict then .error (.definitions problems)
  return { config, vars, formulas }

/-- The shown form of a number under the settings of the workbook. -/
def format (w : Workbook) (x : Float) : Except Failure String := do
  let precision ← w.config.precision.mapError .setting
  (formatNumber x precision).mapError .precision

/-! ### Formulas -/

/-- The formulas in the order of their names; those with one name stay in their order. -/
def sortedFormulas (w : Workbook) : List Formula :=
  w.formulas.mergeSort fun f g => Text.precedes f.name g.name

/-- The first formula with a name, in letters of either case. -/
def formula? (w : Workbook) (name : String) : Except Failure Formula :=
  let wanted := normalizeName name
  match w.formulas.find? (·.name == wanted) with
  | some f => .ok f
  | none => .error (.unknownFormula wanted)

/-- The placeholders that the formula with a name asks for. -/
def contextNames (w : Workbook) (name : String) : Except Failure (List String) :=
  (w.formula? name).map fun f => FormulaBook.contextNames f.expression

/-! ### Runs -/

/-- The event for a variable that has no value. -/
def variableEvent (now name message : String) : Event :=
  { time := now, level := .warning, type := .variableError, message
    context := [("variable", .text name)], errorCode := some resolveErrorCode }

/-- The event for a resolution of all variables. -/
def resolvedEvent (now : String) (w : Workbook) (r : Resolution) : Event :=
  { time := now, level := .info, type := .resolveCompleted
    message := s!"Resolved {r.values.length} of {w.vars.length} variables"
    context := [("variable_count", .int w.vars.length), ("error_count", .int r.errors.length)] }

/-- The event for a formula that has no value. -/
def failedEvent (now : String) (f : Formula) (e : EvalError) : Event :=
  { time := now, level := .error, type := .formulaFailed, message := e.message
    context := [("formula", .text f.name), ("kind", .text e.kind.name)]
    errorCode := some executionErrorCode }

/-- The event for a formula whose value is shown as `shown`. -/
def executedEvent (now : String) (f : Formula) (shown : String) : Event :=
  { time := now, level := .info, type := .formulaExecuted, message := f.name ++ " = " ++ shown
    context := [("formula", .text f.name),
      ("context_names", .list ((FormulaBook.contextNames f.expression).map .text))] }

/-- The events of a resolution: one for each error, in order, and one for the whole. -/
def resolutionEvents (now : String) (w : Workbook) (r : Resolution) : List Event :=
  r.errors.map (fun (name, message) => variableEvent now name message) ++ [w.resolvedEvent now r]

/-- The entries of all variables. -/
def resolution (w : Workbook) : Resolution := FormulaBook.resolve w.vars

/-- A resolution of all variables. -/
def resolve (now : String) (w : Workbook) : Traced Resolution :=
  ⟨.ok w.resolution, w.resolutionEvents now w.resolution⟩

/-- An execution of the formula with a name, for which all variables are resolved afresh. -/
def execute (now : String) (w : Workbook) (name : String) (context : Context) : Traced Float :=
  match w.formula? name with
  | .error e => ⟨.error e, []⟩
  | .ok f =>
    let r := w.resolution
    let before := w.resolutionEvents now r
    match FormulaBook.execute f.expression context r.values r.errors with
    | .error e => ⟨.error (.evaluation e), before ++ [failedEvent now f e]⟩
    | .ok x =>
      match w.format x with
      | .error e => ⟨.error e, before⟩
      | .ok shown => ⟨.ok x, before ++ [executedEvent now f shown]⟩

end Workbook

end FormulaBook
