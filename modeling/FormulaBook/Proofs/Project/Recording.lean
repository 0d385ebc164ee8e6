import FormulaBook.Project.Workspace
import FormulaBook.Proofs.Event.Writing

/-!
# What operations record

An operation on a workspace reports events, and the attached log keeps those that can be written.
Nothing else in the workspace changes, and whether a log is attached or can be written has no part
in the outcome.

* `Workspace.record_of_write`, `Workspace.recordAll_of_writes`: events that can be written;
* `Workspace.recordAll_at`: the time has no part in what is recorded;
* `Workspace.get?_recordAll`: the places that events leave alone;
* `Action.run_ofTraced`: the outcome of a run, with its events recorded;
* `Action.Yields`: an operation with one outcome in all workspaces, which records and does nothing
  else, with the ways in which such operations are put together.
-/

namespace FormulaBook

/-! ### Workspaces -/

namespace Workspace

variable {ws : Workspace} {s : Sink} {files : Files} {events : List Event}

theorem record_of_write {e : Event} (hsink : ws.sink = some s)
    (hwrite : s.write e.checked ws.files = .ok files) : ws.record e = { ws with files } := by
  rw [record, hsink]
  simp only [hwrite]

/-- An event is lost, or it is written to the attached log. -/
theorem record_cases (ws : Workspace) (e : Event) : ws.record e = ws ∨
    ∃ s files, ws.sink = some s ∧ s.write e.checked ws.files = .ok files ∧
      ws.record e = { ws with files } := by
  cases hsink : ws.sink with
  | none => exact .inl (by rw [record, hsink])
  | some s =>
    cases hwrite : s.write e.checked ws.files with
    | error cause =>
      left
      rw [record, hsink]
      simp only [hwrite]
    | ok files => exact .inr ⟨s, files, rfl, hwrite, by rw [record_of_write hsink hwrite, hsink]⟩

/-- A row of events that can be written, one after the other. -/
theorem recordAll_of_writes (hsink : ws.sink = some s)
    (hwrites : events.foldlM (fun files e => s.write e.checked files) ws.files = .ok files) :
    ws.recordAll events = { ws with files } := by
  induction events generalizing ws with
  | nil =>
    cases hwrites
    rfl
  | cons e events ih =>
    rw [List.foldlM_cons] at hwrites
    obtain ⟨between, hwrite, hrest⟩ := bind_eq_ok.1 hwrites
    rw [recordAll, List.foldl_cons, record_of_write hsink hwrite]
    exact ih hsink hrest

theorem sink_record (ws : Workspace) (e : Event) : (ws.record e).sink = ws.sink := by
  obtain heq | ⟨s, files, -, -, heq⟩ := ws.record_cases e <;> rw [heq]

theorem get?_record {place : Path}
    (hplace : ∀ s, ws.sink = some s → ¬ place <+: s.logs ∧ place ≠ s.path) (e : Event) :
    (ws.record e).files.get? place = ws.files.get? place := by
  obtain heq | ⟨s, files, hsink, hwrite, heq⟩ := ws.record_cases e
  · rw [heq]
  · obtain ⟨hinside, hne⟩ := hplace s hsink
    rw [heq]
    exact Sink.get?_append_of_not_prefix (Sink.write_eq_ok hwrite).2.2 hinside hne

theorem recordAll_append (ws : Workspace) (events later : List Event) :
    ws.recordAll (events ++ later) = (ws.recordAll events).recordAll later :=
  List.foldl_append

/-- The time of a workspace has no part in what is recorded. -/
theorem record_at (ws : Workspace) (now : String) (e : Event) :
    ({ ws with now } : Workspace).record e = { ws.record e with now } := by
  obtain ⟨files, current, sink, -⟩ := ws
  cases sink with
  | none => rfl
  | some sink =>
    dsimp only [record]
    cases sink.write e.checked files <;> rfl

theorem recordAll_at (ws : Workspace) (now : String) (events : List Event) :
    ({ ws with now } : Workspace).recordAll events = { ws.recordAll events with now } := by
  induction events generalizing ws with
  | nil => rfl
  | cons e events ih =>
    rw [recordAll, List.foldl_cons, record_at]
    exact ih (ws.record e)

theorem sink_recordAll (ws : Workspace) (events : List Event) :
    (ws.recordAll events).sink = ws.sink := by
  induction events generalizing ws with
  | nil => rfl
  | cons e events ih =>
    rw [recordAll, List.foldl_cons]
    exact (ih _).trans (ws.sink_record e)

/-- Events change the log and directories on the way to it, and no other place. -/
theorem get?_recordAll {place : Path}
    (hplace : ∀ s, ws.sink = some s → ¬ place <+: s.logs ∧ place ≠ s.path) (events : List Event) :
    (ws.recordAll events).files.get? place = ws.files.get? place := by
  induction events generalizing ws with
  | nil => rfl
  | cons e events ih =>
    rw [recordAll, List.foldl_cons]
    have hlater : ((ws.record e).recordAll events).files.get? place =
        (ws.record e).files.get? place := ih (by rw [sink_record]; exact hplace)
    exact hlater.trans (get?_record hplace e)

end Workspace

/-- The log that a project asks for is its own. -/
theorem Config.directory_of_sink? {c : Config} {directory : Path} {s : Sink}
    (h : c.sink? directory = .ok (some s)) : s.directory = directory := by
  unfold Config.sink? at h
  split at h
  · split at h
    · cases h
      rfl
    · cases h
  · cases h

/-! ### Runs of a workbook -/

/-- The time of an execution has no part in its outcome. -/
theorem Workbook.outcome_execute (w : Workbook) (now now' name : String) (context : Context) :
    (w.execute now name context).outcome = (w.execute now' name context).outcome := by
  unfold execute
  split
  · rfl
  · dsimp only
    split
    · rfl
    · split <;> rfl

/-! ### Operations -/

namespace Action

variable {α β : Type}

theorem run_ofTraced (run : String → Traced α) (ws : Workspace) :
    (ofTraced run).run ws = ((run ws.now).outcome, ws.recordAll (run ws.now).events) := by
  show (liftM (run ws.now).outcome : Action α).run (ws.recordAll (run ws.now).events) = _
  cases (run ws.now).outcome <;> rfl

theorem run_map_ofTraced (f : α → β) (run : String → Traced α) (ws : Workspace) :
    (do return f (← ofTraced run) : Action β).run ws =
      ((run ws.now).outcome.map f, ws.recordAll (run ws.now).events) := by
  rw [run_bind, run_ofTraced]
  cases (run ws.now).outcome <;> rfl

/-- The choice of a log changes nothing else. -/
theorem run_attach (directory : Path) (ws : Workspace) :
    (attach directory).run ws =
      match (Config.load ws.files directory).bind (·.sink? directory) with
      | .ok sink => (.ok (), { ws with sink })
      | .error e => (.error e, ws) := by
  show ((liftM (Config.load ws.files directory) : Action Config) >>= fun config =>
    (liftM (config.sink? directory) : Action (Option Sink)) >>= fun sink =>
      modify fun ws => { ws with sink }).run ws = _
  rw [run_liftM_bind]
  cases Config.load ws.files directory with
  | error e => rfl
  | ok config =>
    dsimp only [Except.bind]
    rw [run_liftM_bind]
    cases config.sink? directory <;> rfl

/-- In every workspace the operation has the outcome, and it does nothing but record events. -/
def Yields (act : Action α) (outcome : Except Failure α) : Prop :=
  ∀ ws : Workspace, ∃ events, act.run ws = (outcome, ws.recordAll events)

theorem yields_liftM (r : Except Failure α) : Yields (liftM r) r := by
  intro ws
  refine ⟨[], ?_⟩
  cases r <;> rfl

theorem yields_pure (a : α) : Yields (pure a) (.ok a) := fun _ => ⟨[], rfl⟩

theorem yields_throw (e : Failure) : Yields (throw e : Action α) (.error e) := fun _ => ⟨[], rfl⟩

theorem yields_ofTraced {run : String → Traced α} {outcome : Except Failure α}
    (h : ∀ now, (run now).outcome = outcome) : Yields (ofTraced run) outcome := by
  intro ws
  exact ⟨(run ws.now).events, by rw [run_ofTraced, h]⟩

namespace Yields

variable {act : Action α} {outcome : Except Failure α}

theorem bind {next : α → Action β} {after : α → Except Failure β} (h : Yields act outcome)
    (hnext : ∀ a, outcome = .ok a → Yields (next a) (after a)) :
    Yields (act >>= next) (outcome.bind after) := by
  intro ws
  obtain ⟨events, hrun⟩ := h ws
  rw [run_bind, hrun]
  cases houtcome : outcome with
  | error e => exact ⟨events, rfl⟩
  | ok a =>
    obtain ⟨later, hlater⟩ := hnext a houtcome (ws.recordAll events)
    exact ⟨events ++ later, by rw [Workspace.recordAll_append]; exact hlater⟩

/-- An event that tells the time at which it is reported may come first. -/
theorem after_report (h : Yields act outcome) (event : String → Event) :
    Yields (do report (event (← get).now); act) outcome := by
  intro ws
  obtain ⟨events, hrun⟩ := h (ws.record (event ws.now))
  exact ⟨event ws.now :: events, hrun⟩

theorem tryCatch {handler : Failure → Action α} (h : Yields act outcome)
    (after : Failure → Except Failure α)
    (hhandler : ∀ e, outcome = .error e → Yields (handler e) (after e)) :
    Yields (MonadExcept.tryCatch act handler) (outcome.tryCatch after) := by
  intro ws
  obtain ⟨events, hrun⟩ := h ws
  rw [run_tryCatch, hrun]
  cases houtcome : outcome with
  | ok a => exact ⟨events, rfl⟩
  | error e =>
    obtain ⟨later, hlater⟩ := hhandler e houtcome (ws.recordAll events)
    exact ⟨events ++ later, by rw [Workspace.recordAll_append]; exact hlater⟩

theorem mapM {τ : Type} {act : τ → Action α} {outcome : τ → Except Failure α} {l : List τ}
    (h : ∀ t ∈ l, Yields (act t) (outcome t)) : Yields (l.mapM act) (l.mapM outcome) := by
  induction l with
  | nil => exact yields_pure []
  | cons t l ih =>
    rw [List.forall_mem_cons] at h
    rw [List.mapM_cons, List.mapM_cons]
    exact h.1.bind fun a _ => (ih h.2).bind fun rest _ => yields_pure (a :: rest)

end Yields

end Action

end FormulaBook
