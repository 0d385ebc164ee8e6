import FormulaBook.CommandLine.Run
import FormulaBook.Proofs.Decimal.Written
import FormulaBook.Proofs.Project.Recording
import FormulaBook.Proofs.Text.Halves
import FormulaBook.Proofs.Workbook.Strict

/-!
# Tasks

A task is asked of a project that is there: to resolve its variables, to list its formulas or to
execute one of them. Its command loads the workbook and attaches the log; what is printed from there
on is told by the workbook.

* `run_ofAction`, `run_workbook`, `run_directory`: the parts of a command;
* `Task`, `Task.command`: what is asked, and the command that asks it;
* `Task.output`, `Outcome.ofOutput`: what is printed for a workbook, or why it is not printed;
* `run_task`: the outcome of a task.
-/

namespace FormulaBook.CommandLine

open Text

/-! ### Parts of a command -/

section Jobs

variable {α : Type} {ws : Workspace} {text : String} {directory : Path}

theorem run_ofAction (stop : Failure → Stop) (act : Action α) (ws : Workspace) :
    ExceptT.run (Job.ofAction stop act) ws =
      match act.run ws with
      | (.ok x, ws') => (.ok x, ws')
      | (.error e, ws') => (.error (stop e), ws') := by
  rw [Job.ofAction, run_bind]
  have hlift : ExceptT.run (liftM act.run : Job (Except Failure α)) ws =
      (.ok (act.run ws).1, (act.run ws).2) := rfl
  rw [hlift]
  rcases act.run ws with ⟨⟨e⟩ | ⟨x⟩, ws'⟩ <;> rfl

/-- An action that has no part in the workspace. -/
theorem run_ofAction_liftM (stop : Failure → Stop) (r : Except Failure α) (ws : Workspace) :
    ExceptT.run (Job.ofAction stop (liftM r)) ws = (r.mapError stop, ws) := by
  rw [run_ofAction]
  cases r <;> rfl

/-- The directory of a command is where its text leads, if a directory is there. -/
theorem run_directory (htext : text.contains '\x00' = false)
    (hlocate : ws.files.locate ws.current text = .ok directory)
    (hthere : ws.files.has directory = true) :
    ExceptT.run (Job.directory text) ws = (.ok directory, ws) := by
  have hpath : ExceptT.run (Job.pathText text) ws = (.ok text, ws) := by
    rw [Job.pathText, htext]
    rfl
  have hget : ExceptT.run (get : Job Workspace) ws = (.ok ws, ws) := rfl
  rw [Job.directory, run_bind, hpath]
  dsimp only
  rw [run_bind, hget]
  dsimp only
  rw [hlocate]
  dsimp only
  rw [if_pos hthere]
  rfl

/-- The directory that commands are run in can be written as a dot. -/
theorem run_directory_dot (hthere : ws.files.get? ws.current = some .directory) :
    ExceptT.run (Job.directory ".") ws = (.ok ws.current, ws) := by
  have hparts : ".".splitOn "/" = ["."] := by
    rw [String.splitOn, String.splitOnAux, String.splitOnAux]
    decide +kernel
  have henter : ws.files.enter ws.current "." = .ok ws.current := by
    rw [Files.enter, hthere]
    rfl
  have hlocate : ws.files.locate ws.current "." = .ok ws.current := by
    rw [Files.locate, hparts]
    exact bind_eq_ok.2 ⟨ws.current, henter, rfl⟩
  refine run_directory (by simp) hlocate ?_
  rw [Files.has, hthere]
  rfl

/-- A workbook that does not load is reported if its files are at fault; a log that cannot be
attached is not. -/
theorem run_workbook (directory : Path) (ws : Workspace) :
    ExceptT.run (Job.workbook directory) ws =
      match Workbook.load ws.files directory with
      | .error e => (.error (Job.shownIf (·.isReported) e), ws)
      | .ok w =>
        match w.config.sink? directory with
        | .error e => (.error (.escaped e), ws)
        | .ok sink => (.ok w, { ws with sink }) := by
  show ExceptT.run (Job.ofAction (Job.shownIf (·.isReported))
    (liftM (Workbook.load ws.files directory)) >>= fun w =>
      Job.run (Action.attach directory) >>= fun _ => (pure w : Job Workbook)) ws = _
  rw [run_bind, run_ofAction_liftM]
  cases hload : Workbook.load ws.files directory with
  | error e => rfl
  | ok w =>
    have hconfig := (Workbook.loads_of_load hload).config_eq
    dsimp only [Except.mapError]
    rw [run_bind, Job.run, run_ofAction, Action.run_attach, hconfig]
    dsimp only [Except.bind]
    cases w.config.sink? directory <;> rfl

end Jobs

/-! ### Tasks -/

/-- What is asked of a project. -/
inductive Task where
  | resolve (json : Bool)
  | formulas
  | execute (name : String) (items : List String) (json : Bool)

/-- What is printed for the outcome of an execution, or why it is not printed. -/
def executionOutput (w : Workbook) (name : String) (json : Bool) :
    Except Failure Float → Except Stop String
  | .error e => .error (Command.executionStop name json e)
  | .ok x =>
    if json then
      .ok ((Json.object [("formula", .text (upper name)), ("result", .float x)]).render ++ "\n")
    else ((w.format x).map (· ++ "\n")).mapError .escaped

namespace Task

/-- The command that asks it of the project to which a text leads. -/
def command (text : String) : Task → Command
  | .resolve json => .resolve text json
  | .formulas => .formulas text
  | .execute name items json => .execute text name items json

/-- What is printed for a workbook, or why it is not printed. -/
def output (w : Workbook) (now : String) : Task → Except Stop String
  | .resolve true => .ok ((resolutionJson w.resolution).renderIndented 0 ++ "\n")
  | .resolve false =>
    (listing "No variables defined." (variableLine w w.resolution) w.vars).mapError .escaped
  | .formulas =>
    (listing "No formulas defined." (formulaLine w) w.sortedFormulas).mapError .escaped
  | .execute name items json =>
    (Job.context items).bind fun context =>
      executionOutput w name json (w.execute now name context).outcome

end Task

/-- The outcome of a task with an output. No text with half of a pair can be printed. -/
def Outcome.ofOutput : Except Stop String → Outcome
  | .ok output => if holdsHalf output then .escaped .halfInText else .printed 0 output
  | .error stop => .ofExcept (.error stop)

theorem isAscii_of_format {w : Workbook} {x : Float} {shown : String}
    (h : w.format x = .ok shown) : IsAscii shown := by
  obtain ⟨precision, -, hformat⟩ := bind_eq_ok.1 h
  exact isAscii_of_isPlain (isPlain_of_formatNumber (mapError_eq_ok.1 hformat))

section Runs

variable {ws : Workspace} {text : String} {directory : Path} {words : List String} {task : Task}

theorem run_printing (job : Job String) (ws : Workspace) :
    Outcome.ofExcept (ExceptT.run (Command.printing job) ws).1 =
      .ofOutput (ExceptT.run job ws).1 := by
  unfold Command.printing
  rw [run_bind]
  rcases ExceptT.run job ws with ⟨⟨stop⟩ | ⟨output⟩, ws'⟩
  · rfl
  · dsimp only [Outcome.ofOutput]
    split <;> rfl

/-- With its workbook at hand, the command of a task prints the output of the task. -/
theorem exists_job (task : Task) (text : String) : ∃ job : Workbook → Job String,
    Command.run (task.command text) =
      Command.printing (do job (← Job.workbook (← Job.directory text))) ∧
    ∀ w ws, (ExceptT.run (job w) ws).1 = task.output w ws.now := by
  cases task with
  | resolve json =>
    refine ⟨_, rfl, fun w ws => ?_⟩
    rw [run_bind, Job.run, run_ofAction, Action.run_ofTraced]
    cases json with
    | true => rfl
    | false =>
      exact congrArg Prod.fst (run_ofAction_liftM .escaped
        (listing "No variables defined." (variableLine w w.resolution) w.vars) _)
  | formulas =>
    refine ⟨_, rfl, fun w ws => ?_⟩
    exact congrArg Prod.fst (run_ofAction_liftM .escaped
      (listing "No formulas defined." (formulaLine w) w.sortedFormulas) ws)
  | execute name items json =>
    refine ⟨_, rfl, fun w ws => ?_⟩
    rw [run_liftM_bind, Task.output]
    cases Job.context items with
    | error stop => rfl
    | ok context =>
      dsimp only [Except.bind]
      rw [run_bind, run_ofAction, Action.run_ofTraced]
      cases (w.execute ws.now name context).outcome with
      | error e => rfl
      | ok x =>
        cases json with
        | true => rfl
        | false =>
          dsimp only [executionOutput]
          rw [if_neg Bool.false_ne_true, if_neg Bool.false_ne_true, run_bind, Job.run,
            run_ofAction_liftM]
          cases w.format x <;> rfl

/-- **The outcome of a task.** -/
theorem run_task (hcommand : Command.ofWords? words = some (task.command text))
    (hdirectory : ExceptT.run (Job.directory text) ws = (.ok directory, ws)) :
    (run words ws).1 =
      match Workbook.load ws.files directory with
      | .error e => .ofExcept (.error (Job.shownIf (·.isReported) e))
      | .ok w =>
        match w.config.sink? directory with
        | .error e => .escaped e
        | .ok _ => .ofOutput (task.output w ws.now) := by
  obtain ⟨job, hjob, houtput⟩ := exists_job task text
  have hrun : (run words ws).1 =
      Outcome.ofExcept (ExceptT.run (Command.run (task.command text)) ws).1 := by
    rw [run, hcommand]
    rfl
  rw [hrun, hjob, run_printing, run_bind, hdirectory]
  dsimp only
  rw [run_bind, run_workbook]
  cases Workbook.load ws.files directory with
  | error e => rfl
  | ok w =>
    dsimp only
    cases w.config.sink? directory with
    | error e => rfl
    | ok sink => exact congrArg Outcome.ofOutput (houtput w { ws with sink })

end Runs

end FormulaBook.CommandLine
