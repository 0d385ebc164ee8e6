import FormulaBook.Event.Sink
import FormulaBook.Project.Config
import FormulaBook.Workbook.Basic

/-!
# Workspaces

The files that operations work on, and the log that their events go to.

* `Config.sink?`: the log that a project asks for;
* `Workspace`: the files, and the log that is attached;
* `Workspace.record`: an event in the attached log;
* `Action`: an operation on a workspace, whose changes stay also if it fails;
* `Action.ofTraced`, `Action.attach`, `Action.detach`: the reports of a run, the choice of a log.
-/

namespace FormulaBook

/-- The log of the project in a directory, if the project keeps events. -/
def Config.sink? (c : Config) (directory : Path) : Except Failure (Option Sink) :=
  if c.keepsEvents then
    match c.window with
    | .ok window => .ok (some { directory, window })
    | .error e => .error (.setting e)
  else .ok none

/-- The files that operations work on, the directory in which they are named, the log that events go
to, if there is one, and the time at which they happen. -/
structure Workspace where
  files : Files := {}
  current : Path := []
  sink : Option Sink := none
  now : String

namespace Workspace

/-- The workspace with an event in the attached log. Without a log, or if the log cannot be written,
the event is lost. -/
def record (w : Workspace) (e : Event) : Workspace :=
  match w.sink with
  | none => w
  | some sink =>
    match sink.write e.checked w.files with
    | .ok files => { w with files }
    | .error _ => w

/-- The workspace with some events in the attached log, in order. -/
def recordAll (w : Workspace) (events : List Event) : Workspace := events.foldl record w

end Workspace

/-- An operation on a workspace. What it changed before it failed stays changed. -/
abbrev Action := ExceptT Failure (StateM Workspace)

namespace Action

/-- Reports an event. -/
def report (e : Event) : Action Unit := modify (·.record e)

/-- The outcome of a run, whose events are reported. -/
def ofTraced {α : Type} (run : String → Traced α) : Action α := do
  let traced := run (← get).now
  modify (·.recordAll traced.events)
  traced.outcome

/-- A change of the files. -/
def changeFiles (change : Files → Except Failure Files) : Action Unit := do
  let files ← change (← get).files
  modify ({ · with files })

/-- Attaches the log of the project in a directory, or none if the project keeps no events. -/
def attach (directory : Path) : Action Unit := do
  let config ← Config.load (← get).files directory
  let sink ← config.sink? directory
  modify ({ · with sink })

/-- Detaches the log. -/
def detach : Action Unit := modify ({ · with sink := none })

end Action

end FormulaBook
