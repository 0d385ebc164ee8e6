import FormulaBook.Proofs.Workbook.Calls

/-!
# Events have no part in what calls give back

A call hands over its events while it runs, each at the place where it happens: after the variables
have been resolved, and again before the value or the error of a formula is given back. Whoever
keeps the events has a state of its own, and each write may fail, whatever it changed before.

* `Keeper`, `emit`: a keeper of events, and an event that is handed to it;
* `Workbook.resolveKept`, `Workbook.executeKept`, `Call.performKept`, `performAllKept`: the calls of
  a workbook, step by step;
* `Emits`: a run that has an outcome and hands over some events, whatever becomes of them;
* `emits_performKept`, `performAllKept_eq`: what one call and a row of calls hand over;
* `Sink.keeper`, `performAllKept_keeper`: the attached log is such a keeper;
* `exists_answers`: every call has one answer, whoever keeps the events.
-/

namespace FormulaBook

variable {σ τ α β : Type}

/-! ### Keepers -/

/-- A keeper of events, with a state of its own. A write may fail, and what it changed before it
failed stays changed. -/
abbrev Keeper (σ : Type) := Event → ExceptT Failure (StateM σ) Unit

/-- A run in the presence of a keeper. -/
abbrev Kept (σ : Type) := ExceptT Failure (StateM σ)

/-- Hands an event to the keeper, if there is one. A write that fails is given up. -/
def emit (keeper : Option (Keeper σ)) (e : Event) : Kept σ Unit :=
  match keeper with
  | none => pure ()
  | some write => tryCatch (write e.checked) fun _ => pure ()

/-- The state of the keeper after an event. -/
def afterEvent (keeper : Option (Keeper σ)) (s : σ) (e : Event) : σ := ((emit keeper e).run s).2

/-! ### Calls, step by step -/

namespace Workbook

variable (keeper : Option (Keeper σ)) (now : String) (w : Workbook)

/-- A resolution of all variables, whose events are handed over before its result. -/
def resolveKept : Kept σ Resolution := do
  let r := w.resolution
  r.errors.forM fun (name, message) => emit keeper (variableEvent now name message)
  emit keeper (w.resolvedEvent now r)
  return r

/-- The value of a formula after a resolution. The event for a value holds its shown form, which an
unusable precision does not allow; then there is no event and no value. -/
def applyKept (f : Formula) (context : Context) (r : Resolution) : Kept σ Float :=
  match FormulaBook.execute f.expression context r.values r.errors with
  | .error e => do
    emit keeper (failedEvent now f e)
    throw (.evaluation e)
  | .ok x => do
    let shown ← liftM (w.format x)
    emit keeper (executedEvent now f shown)
    return x

/-- An execution of the formula with a name, for which all variables are resolved afresh. -/
def executeKept (name : String) (context : Context) : Kept σ Float := do
  let f ← liftM (w.formula? name)
  let r ← w.resolveKept keeper now
  w.applyKept keeper now f context r

end Workbook

/-- A call of a workbook. -/
def Call.performKept (keeper : Option (Keeper σ)) (w : Workbook) (now : String) :
    Call → Kept σ Reply
  | .resolve => do return .resolution (← w.resolveKept keeper now)
  | .execute name context => do return .value (← w.executeKept keeper now name context)

/-- The outcomes of some calls, each at its time, and the state of the keeper after them. -/
def performAllKept (keeper : Option (Keeper σ)) (w : Workbook) :
    List (String × Call) → σ → List (Except Failure Reply) × σ
  | [], s => ([], s)
  | (now, call) :: rest, s =>
    let (outcome, s) := (call.performKept keeper w now).run s
    let (outcomes, s) := performAllKept keeper w rest s
    (outcome :: outcomes, s)

/-! ### Runs that hand over events -/

section Emits

variable {keeper : Option (Keeper σ)} {events later : List Event}

/-- Whether the write fails or not, the state is as it leaves it. -/
theorem afterEvent_some (write : Keeper σ) (s : σ) (e : Event) :
    afterEvent (some write) s e = ((write e.checked).run s).2 := by
  rw [afterEvent, emit, run_tryCatch]
  rcases (write e.checked).run s with ⟨⟨cause⟩ | ⟨⟩, s'⟩ <;> rfl

/-- To hand over an event never fails. -/
theorem run_emit (keeper : Option (Keeper σ)) (e : Event) (s : σ) :
    (emit keeper e).run s = (.ok (), afterEvent keeper s e) := by
  cases keeper with
  | none => rfl
  | some write =>
    rw [afterEvent_some, emit, run_tryCatch]
    rcases (write e.checked).run s with ⟨⟨cause⟩ | ⟨⟩, s'⟩ <;> rfl

/-- In every state of the keeper the run has the outcome, and it does nothing but hand over the
events, one after the other. -/
def Emits (keeper : Option (Keeper σ)) (act : Kept σ α) (outcome : Except Failure α)
    (events : List Event) : Prop :=
  ∀ s, act.run s = (outcome, events.foldl (afterEvent keeper) s)

theorem emits_pure (a : α) : Emits keeper (pure a) (.ok a) [] := fun _ => rfl

theorem emits_throw (e : Failure) : Emits keeper (throw e : Kept σ α) (.error e) [] := fun _ => rfl

theorem emits_liftM (r : Except Failure α) : Emits keeper (liftM r) r [] := by
  intro s
  cases r <;> rfl

theorem emits_emit (e : Event) : Emits keeper (emit keeper e) (.ok ()) [e] := run_emit keeper e

namespace Emits

variable {act : Kept σ α}

theorem bind {next : α → Kept σ β} {a : α} {outcome : Except Failure β}
    (h : Emits keeper act (.ok a) events) (hnext : Emits keeper (next a) outcome later) :
    Emits keeper (act >>= next) outcome (events ++ later) := by
  intro s
  rw [run_bind, h s, List.foldl_append]
  exact hnext _

theorem bind_error {e : Failure} (h : Emits keeper act (.error e) events) (next : α → Kept σ β) :
    Emits keeper (act >>= next) (.error e) events := by
  intro s
  rw [run_bind, h s]

theorem map {outcome : Except Failure α} (h : Emits keeper act outcome events) (f : α → β) :
    Emits keeper (do return f (← act)) (outcome.map f) events := by
  cases outcome with
  | error e => exact h.bind_error _
  | ok a =>
    have hmapped : Emits keeper (do return f (← act)) (.ok (f a)) (events ++ []) :=
      h.bind (emits_pure (f a))
    rwa [List.append_nil] at hmapped

end Emits

/-- A row of events, handed over one after the other. -/
theorem emits_forM (event : τ → Event) (l : List τ) :
    Emits keeper (l.forM fun t => emit keeper (event t)) (.ok ()) (l.map event) := by
  induction l with
  | nil => exact emits_pure ()
  | cons t l ih => exact (emits_emit (event t)).bind ih

end Emits

/-! ### What calls hand over -/

section Calls

variable (keeper : Option (Keeper σ)) (now : String) (w : Workbook)

theorem emits_resolveKept :
    Emits keeper (w.resolveKept keeper now) (w.resolve now).outcome (w.resolve now).events := by
  have hlast : Emits keeper (do emit keeper (w.resolvedEvent now w.resolution); return w.resolution)
      (.ok w.resolution) [w.resolvedEvent now w.resolution] :=
    (emits_emit _).bind (emits_pure _)
  exact (emits_forM _ w.resolution.errors).bind hlast

section Apply

variable {f : Formula} {context : Context} {r : Resolution} {x : Float}

theorem emits_applyKept_of_error {e : EvalError}
    (hx : execute f.expression context r.values r.errors = .error e) :
    Emits keeper (w.applyKept keeper now f context r) (.error (.evaluation e))
      [Workbook.failedEvent now f e] := by
  unfold Workbook.applyKept
  rw [hx]
  exact (emits_emit _).bind (emits_throw _)

theorem emits_applyKept_of_format_error {e : Failure}
    (hx : execute f.expression context r.values r.errors = .ok x) (hshown : w.format x = .error e) :
    Emits keeper (w.applyKept keeper now f context r) (.error e) [] := by
  unfold Workbook.applyKept
  rw [hx]
  dsimp only
  rw [hshown]
  exact (emits_liftM (.error e)).bind_error _

theorem emits_applyKept_of_format {shown : String}
    (hx : execute f.expression context r.values r.errors = .ok x)
    (hshown : w.format x = .ok shown) :
    Emits keeper (w.applyKept keeper now f context r) (.ok x)
      [Workbook.executedEvent now f shown] := by
  have hlast : Emits keeper (do emit keeper (Workbook.executedEvent now f shown); return x) (.ok x)
      [Workbook.executedEvent now f shown] := (emits_emit _).bind (emits_pure _)
  unfold Workbook.applyKept
  rw [hx]
  dsimp only
  rw [hshown]
  exact (emits_liftM (.ok shown)).bind hlast

end Apply

/-- An execution has the outcome of its run, and hands over its events: those of the resolution, and
then one for the formula, unless there is no such formula or its value cannot be shown. -/
theorem emits_executeKept (name : String) (context : Context) :
    Emits keeper (w.executeKept keeper now name context) (w.execute now name context).outcome
      (w.execute now name context).events := by
  have hformula : Emits keeper (liftM (w.formula? name)) (w.formula? name) [] := emits_liftM _
  have hresolve := emits_resolveKept keeper now w
  unfold Workbook.executeKept Workbook.execute
  cases hf : w.formula? name with
  | error e =>
    rw [hf] at hformula
    exact hformula.bind_error _
  | ok f =>
    rw [hf] at hformula
    dsimp only
    cases hx : execute f.expression context w.resolution.values w.resolution.errors with
    | error e =>
      exact hformula.bind (hresolve.bind (emits_applyKept_of_error keeper now w hx))
    | ok x =>
      dsimp only
      cases hshown : w.format x with
      | error e =>
        rw [← List.append_nil (w.resolutionEvents now w.resolution)]
        exact hformula.bind (hresolve.bind (emits_applyKept_of_format_error keeper now w hx hshown))
      | ok shown =>
        exact hformula.bind (hresolve.bind (emits_applyKept_of_format keeper now w hx hshown))

/-- A call has the outcome of its run, and hands over its events. -/
theorem emits_performKept (call : Call) :
    Emits keeper (call.performKept keeper w now) (call.traced w now).outcome
      (call.traced w now).events := by
  cases call with
  | resolve => exact (emits_resolveKept keeper now w).map Reply.resolution
  | execute name context => exact (emits_executeKept keeper now w name context).map Reply.value

/-- Some calls have the outcomes of their runs, and hand over what they report. -/
theorem performAllKept_eq (calls : List (String × Call)) (s : σ) :
    performAllKept keeper w calls s =
      (calls.map fun c => (c.2.traced w c.1).outcome,
        (reported w calls).foldl (afterEvent keeper) s) := by
  induction calls generalizing s with
  | nil => rfl
  | cons c calls ih =>
    obtain ⟨now, call⟩ := c
    rw [performAllKept, emits_performKept]
    dsimp only
    rw [ih, reported_cons, List.foldl_append]
    rfl

end Calls

/-! ### The attached log -/

/-- The log as a keeper of events, whose state are the files. -/
def Sink.keeper (s : Sink) : Keeper Files := fun e => do
  let files ← liftM (s.write e (← get))
  set files

theorem Sink.run_keeper (s : Sink) (e : Event) (files : Files) :
    (s.keeper e).run files =
      match s.write e files with
      | .ok written => (.ok (), written)
      | .error cause => (.error cause, files) := by
  show ((liftM (s.write e files) : Kept Files Files) >>= fun written => set written).run files = _
  rw [run_liftM_bind]
  cases s.write e files <;> rfl

/-- An event that is recorded is handed to the attached log. -/
theorem record_eq (ws : Workspace) (e : Event) :
    ws.record e = { ws with files := afterEvent (ws.sink.map Sink.keeper) ws.files e } := by
  obtain ⟨files, current, sink, now⟩ := ws
  cases sink with
  | none => rfl
  | some sink =>
    dsimp only [Workspace.record, Option.map_some]
    rw [afterEvent_some, Sink.run_keeper]
    cases sink.write e.checked files <;> rfl

theorem recordAll_eq (ws : Workspace) (events : List Event) :
    ws.recordAll events =
      { ws with files := events.foldl (afterEvent (ws.sink.map Sink.keeper)) ws.files } := by
  induction events generalizing ws with
  | nil => rfl
  | cons e events ih =>
    rw [Workspace.recordAll, List.foldl_cons, List.foldl_cons, record_eq]
    exact ih _

/-- The calls of a workbook in a workspace are the calls in the presence of its log. -/
theorem performAllKept_keeper (w : Workbook) (calls : List (String × Call)) (ws : Workspace) :
    performAllKept (ws.sink.map Sink.keeper) w calls ws.files =
      ((performAll w calls ws).1, (performAll w calls ws).2.files) := by
  obtain ⟨now, hperform⟩ := performAll_eq w calls ws
  rw [performAllKept_eq, hperform, recordAll_eq]

/-- The time of a call has no part in its outcome. -/
theorem Call.outcome_traced (w : Workbook) (now now' : String) (call : Call) :
    (call.traced w now).outcome = (call.traced w now').outcome := by
  cases call with
  | resolve => rfl
  | execute name context =>
    exact congrArg (Except.map Reply.value) (w.outcome_execute now now' name context)

/-- **Events have no part in what calls give back.** Each call of a workbook has one answer, which
is a resolution, a value, or a failure. In every workspace, with or without a log, a row of calls
gives these answers, each call its own whatever was called before. So it does in the presence of any
keeper, whichever of its writes fail, or of none. -/
theorem exists_answers (w : Workbook) :
    ∃ answer : Call → Except Failure Reply, ∀ calls : List (String × Call),
      (∀ ws : Workspace,
        (performAll w calls ws).1 = calls.map (fun c => answer c.2) ∧
        (performAll w calls ws).2.files =
          (performAllKept (ws.sink.map Sink.keeper) w calls ws.files).2) ∧
      ∀ (σ : Type) (keeper : Option (Keeper σ)) (s : σ),
        (performAllKept keeper w calls s).1 = calls.map fun c => answer c.2 := by
  have hkept {σ : Type} (keeper : Option (Keeper σ)) (s : σ) (calls : List (String × Call)) :
      (performAllKept keeper w calls s).1 = calls.map fun c => (c.2.traced w "").outcome := by
    rw [performAllKept_eq]
    exact List.map_congr_left fun c _ => c.2.outcome_traced w c.1 ""
  refine ⟨fun call => (call.traced w "").outcome, fun calls =>
    ⟨fun ws => ?_, fun σ keeper s => hkept keeper s calls⟩⟩
  have hperform := performAllKept_keeper w calls ws
  rw [Prod.ext_iff] at hperform
  exact ⟨hperform.1 ▸ hkept _ _ calls, hperform.2.symm⟩

end FormulaBook
