import FormulaBook.CommandLine.Command
import FormulaBook.Json.Printer
import FormulaBook.Project.Scaffold
import FormulaBook.Session.Record

/-!
# Running commands

A command writes its output and ends with a status, zero if it did what was asked. Failures that a
command knows of are reported in its output, all others leave it.

* `Outcome`: how a command ends;
* `Job`: the run of a command, with the reasons for which it stops early, `Stop`;
* `Command.run`: the run of each command;
* `run`: the outcome of some words.
-/

namespace FormulaBook.CommandLine

/-- How a command ends. -/
inductive Outcome where
  | printed (status : Nat) (output : String)
  | serving (session : Session) (address : Address)
  | misused
  | escaped (cause : Failure)

/-- Why a command stops early: it has written what is wrong, its words cannot be used, or it met a
failure that it does not know of. -/
inductive Stop where
  | failed (output : String)
  | misused
  | escaped (cause : Failure)

/-- The run of a command. -/
abbrev Job := ExceptT Stop (StateM Workspace)

/-- The stop with an error that is shown to a person. -/
def Stop.error (message : String) : Stop :=
  .failed ("Error: " ++ Text.spellHalves message ++ "\n")

/-- The outcome of a run. -/
def Outcome.ofExcept : Except Stop Outcome → Outcome
  | .ok outcome => outcome
  | .error (.failed output) => .printed 1 output
  | .error .misused => .misused
  | .error (.escaped cause) => .escaped cause

namespace Job

/-- An action as a part of a run, which stops as `stop` says if the action fails. -/
def ofAction {α : Type} (stop : Failure → Stop) (act : Action α) : Job α := do
  match ← act.run with
  | .ok x => return x
  | .error e => throw (stop e)

/-- The stop for a failure, which is shown if it is of a known kind. -/
def shownIf (known : Failure → Bool) (e : Failure) : Stop :=
  if known e then .error e.message else .escaped e

/-- An action of which no failure is known. -/
def run {α : Type} (act : Action α) : Job α := ofAction .escaped act

/-- A text that can be a path, as it does not hold the null character. -/
def pathText (text : String) : Job String :=
  if text.contains '\x00' then throw (.escaped .nullInPath) else return text

/-- The path that a text denotes in the current directory. -/
def path (text : String) : Job Path := return (← get).current.resolve (← pathText text)

/-- The path of a directory that must be there. -/
def directory (text : String) : Job Path := do
  let text ← pathText text
  let w ← get
  match w.files.locate w.current text with
  | .ok path => if w.files.has path then return path else throw .misused
  | .error _ => throw .misused

/-- The workbook of the project in a directory, whose log is attached. -/
def workbook (directory : Path) : Job Workbook := do
  let loaded ← get
  let w ← ofAction (shownIf (·.isReported)) (liftM (Workbook.load loaded.files directory))
  run (Action.attach directory)
  return w

/-- The context of some items, each a name and a value with an equals sign between. Of two items
with one name, the later counts. -/
def context (items : List String) : Except Stop Context :=
  items.foldlM (fun done item =>
    match Api.cut '=' item with
    | (_, none) =>
      .error (.error ("Invalid --ctx format: " ++ Text.quote item ++ ". Use name=value."))
    | (name, some value) =>
      .ok ((Text.trim name, value) :: done.filter (·.1 != Text.trim name))) []

end Job

/-! ### Output -/

/-- The resolution as JSON. -/
def resolutionJson (r : Resolution) : Json :=
  .object
    [("values", .object (r.values.map fun (name, x) => (name, .float x))),
      ("errors", .object (r.errors.map fun (name, message) => (name, .text message)))]

/-- The line for a variable. -/
def variableLine (w : Workbook) (r : Resolution) (v : Variable) : Except Failure String := do
  let shown ← match r.values.lookup v.name with
    | some x => w.format x
    | none => pure ("ERROR: " ++ (r.errors.lookup v.name).getD "")
  return "  " ++ padded 20 v.name ++ " " ++ padded 8 v.kind.name.toLower ++ " " ++ shown ++ "\n"

/-- The line for a formula. -/
def formulaLine (w : Workbook) (f : Formula) : Except Failure String := do
  let names ← w.contextNames f.name
  let needs := if names.isEmpty then "" else "  needs: " ++ ", ".intercalate names
  return "  " ++ padded 20 f.name ++ " " ++ f.expression ++ needs ++ "\n"

/-- The text of a field of an entry of the log. -/
def entryText (fields : List (String × Json)) (name : String) : String :=
  ((fields.lookup name).getD (.text "")).toValue.display

/-- The line for an entry of the log, which must be an object whose level is a text. -/
def entryLine (j : Json) : Except Failure String :=
  match j with
  | .object fields =>
    match (fields.lookup "level").getD (.text "") with
    | .text level =>
      let code := (fields.lookup "error_code").getD .null
      .ok ("[" ++ entryText fields "ts" ++ "] " ++ padded 7 (Text.upper level) ++ " " ++
        entryText fields "event_type" ++ ": " ++ entryText fields "message" ++
        (if code.isFalsy then "" else "  (" ++ code.toValue.display ++ ")") ++ "\n")
    | _ => .error (.log .unexpectedForm)
  | _ => .error (.log .unexpectedForm)

/-- The lines of a list, or what is said of an empty one. -/
def listing {α : Type} (nothing : String) (line : α → Except Failure String) (items : List α) :
    Except Failure String :=
  if items.isEmpty then .ok (nothing ++ "\n") else (items.mapM line).map String.join

/-! ### Runs -/

namespace Command

/-- Creates a project. -/
def runCreate (directory : String) : Job String := do
  let path ← Job.path directory
  Job.ofAction (Job.shownIf (·.sort == .fileExists)) (scaffold path)
  return "Created project at " ++ path.text ++ "\n"

/-- Evaluates an expression. -/
def runEvaluate (expression : String) : Job String := do
  match FormulaBook.evaluate expression with
  | .error e => throw (.error e.message)
  | .ok x => return (← Job.run (liftM (displayed x))) ++ "\n"

/-- Resolves the variables of a project. -/
def runResolve (directory : String) (json : Bool) : Job String := do
  let w ← Job.workbook (← Job.directory directory)
  let r ← Job.run (Action.ofTraced (w.resolve ·))
  if json then return (resolutionJson r).renderIndented 0 ++ "\n"
  Job.run (liftM (listing "No variables defined." (variableLine w r) w.vars))

/-- Lists the formulas of a project. -/
def runFormulas (directory : String) : Job String := do
  let w ← Job.workbook (← Job.directory directory)
  Job.run (liftM (listing "No formulas defined." (formulaLine w) w.sortedFormulas))

/-- The stop of an execution. An error of the formula is shown in the form that is asked for. -/
def executionStop (name : String) (json : Bool) : Failure → Stop
  | .evaluation e =>
    if json then
      .failed ((Json.object (("formula", .text (Text.upper name)) :: errorFields e)).render ++ "\n")
    else .error e.message
  | e => Job.shownIf (·.sort == .badKey) e

/-- Executes a formula. -/
def runExecute (directory name : String) (items : List String) (json : Bool) : Job String := do
  let w ← Job.workbook (← Job.directory directory)
  let context ← Job.context items
  let x ← Job.ofAction (executionStop name json) (Action.ofTraced (w.execute · name context))
  if json then
    return (Json.object [("formula", .text (Text.upper name)), ("result", .float x)]).render ++ "\n"
  return (← Job.run (liftM (w.format x))) ++ "\n"

/-- Shows the entries of the log that answer a query. -/
def runEvents (directory : String) (query : Log.Query) : Job String := do
  let sink : Sink := { directory := ← Job.directory directory }
  let entries ← Job.run (liftM (sink.read query (← get).files))
  Job.run (liftM (listing "No events found." entryLine entries))

/-- Opens the project that is to be served. -/
def runServe (directory : String) (address : Address) : Job Outcome := do
  let path ← Job.directory directory
  let session ← Job.ofAction (Job.shownIf (·.isReported)) (Session.start path)
  return .serving session address

/-- The run of a task that prints. No text with half of a pair can be printed. -/
def printing (job : Job String) : Job Outcome := do
  let output ← job
  if Text.holdsHalf output then throw (.escaped .halfInText)
  return .printed 0 output

/-- The run of a command. -/
def run : Command → Job Outcome
  | .version => printing (pure ("varcalc, version " ++ engineVersion ++ "\n"))
  | .help text => printing (pure text)
  | .create directory => printing (runCreate directory)
  | .evaluate expression => printing (runEvaluate expression)
  | .resolve directory json => printing (runResolve directory json)
  | .formulas directory => printing (runFormulas directory)
  | .execute directory formula context json =>
    printing (runExecute directory formula context json)
  | .events directory query => printing (runEvents directory query)
  | .serve directory address => runServe directory address

end Command

/-- The outcome of some words. -/
def run (words : List String) : StateM Workspace Outcome :=
  match Command.ofWords? words with
  | none => pure .misused
  | some command => Outcome.ofExcept <$> ExceptT.run command.run

/-- What is printed while a project is served. The channel that the system chose is `chosen`. -/
def Address.servingText (a : Address) (chosen : String) : String :=
  "Serving API at http://" ++ a.host ++ ":" ++ a.channel.elim chosen toString ++
    "/api\nPress Ctrl+C to stop\n"

end FormulaBook.CommandLine
