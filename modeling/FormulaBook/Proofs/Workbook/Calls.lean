import FormulaBook.Proofs.Event.Marking
import FormulaBook.Proofs.Project.Recording
import Mathlib.Data.List.Forall2

/-!
# The log of the calls of a workbook

A workbook is called to resolve its variables or to execute a formula. Each call reports what
happens, and the log keeps the reports of a row of calls one after the other.

* `Call`, `Call.perform`, `performAll`: calls, one of them and a row of them;
* `Event.Tells`: what an event says;
* `TellsResolution`, `Tells`, `TellsAll`: the events that belong to an outcome, or to a row of them;
* `tells_traced`: a call reports the events that belong to its outcome;
* `reported`, `performAll_eq`: what a row of calls reports, and what it comes to;
* `content_performAll`: what a row of calls adds to the log.
-/

namespace FormulaBook

/-! ### Calls -/

/-- A call of a workbook. -/
inductive Call where
  | resolve
  | execute (name : String) (context : Context)

/-- What a call gives back. -/
inductive Reply where
  | resolution (r : Resolution)
  | value (x : Float)

/-- A run whose value is told otherwise. -/
def Traced.map {α β : Type} (f : α → β) (t : Traced α) : Traced β := ⟨t.outcome.map f, t.events⟩

namespace Call

/-- The run of a call. -/
def traced (w : Workbook) (now : String) : Call → Traced Reply
  | .resolve => (w.resolve now).map .resolution
  | .execute name context => (w.execute now name context).map .value

/-- A call of a workbook in a workspace. -/
def perform (w : Workbook) : Call → Action Reply
  | .resolve => do return .resolution (← Action.ofTraced (w.resolve ·))
  | .execute name context => do return .value (← Action.ofTraced (w.execute · name context))

theorem run_perform (w : Workbook) (call : Call) (ws : Workspace) :
    (call.perform w).run ws =
      ((call.traced w ws.now).outcome, ws.recordAll (call.traced w ws.now).events) := by
  cases call with
  | resolve => exact Action.run_map_ofTraced Reply.resolution (w.resolve ·) ws
  | execute name context => exact Action.run_map_ofTraced Reply.value (w.execute · name context) ws

end Call

/-- The outcomes of some calls, each at its time, and the workspace after them. -/
def performAll (w : Workbook) :
    List (String × Call) → Workspace → List (Except Failure Reply) × Workspace
  | [], ws => ([], ws)
  | (now, call) :: rest, ws =>
    let (outcome, ws) := (call.perform w).run { ws with now }
    let (outcomes, ws) := performAll w rest ws
    (outcome :: outcomes, ws)

/-! ### What is reported -/

/-- What an event says, besides its code. -/
structure Event.Tells (e : Event) (now : String) (level : EventLevel) (type : EventType)
    (context : List (String × Json)) (message : String) : Prop where
  time : e.time = now
  level : e.level = level
  type : e.type = type
  context : e.context = context
  message : e.message = message

/-- The events of a resolution: a warning for each error, in order, and one event for the whole. -/
def TellsResolution (w : Workbook) (now : String) (events : List Event) : Prop :=
  ∃ warnings last, events = warnings ++ [last] ∧
    List.Forall₂ (fun (entry : String × String) e => Event.Tells e now .warning .variableError
      [("variable", .text entry.1)] entry.2) w.resolution.errors warnings ∧
    Event.Tells last now .info .resolveCompleted
      [("variable_count", .int w.vars.length), ("error_count", .int w.resolution.errors.length)]
      s!"Resolved {w.resolution.values.length} of {w.vars.length} variables"

/-- The events that belong to the outcome of a call. -/
inductive Tells (w : Workbook) (now : String) : Call → Except Failure Reply → List Event → Prop
  | resolve {events : List Event} (h : TellsResolution w now events) :
      Tells w now .resolve (.ok (.resolution w.resolution)) events
  /-- A name without a formula is reported to nobody but the caller. -/
  | unknown {name : String} {context : Context}
      (h : ∀ f ∈ w.formulas, f.name ≠ normalizeName name) :
      Tells w now (.execute name context) (.error (.unknownFormula (normalizeName name))) []
  | executed {name : String} {context : Context} {f : Formula} {x : Float} {shown : String}
      {events : List Event} {last : Event}
      (hf : w.formulas.find? (·.name == normalizeName name) = some f)
      (hx : execute f.expression context w.resolution.values w.resolution.errors = .ok x)
      (hshown : w.format x = .ok shown) (h : TellsResolution w now events)
      (hlast : last.Tells now .info .formulaExecuted
        [("formula", .text f.name),
          ("context_names", .list ((contextNames f.expression).map .text))]
        (f.name ++ " = " ++ shown)) :
      Tells w now (.execute name context) (.ok (.value x)) (events ++ [last])
  | failed {name : String} {context : Context} {f : Formula} {e : EvalError}
      {events : List Event} {last : Event}
      (hf : w.formulas.find? (·.name == normalizeName name) = some f)
      (he : execute f.expression context w.resolution.values w.resolution.errors = .error e)
      (h : TellsResolution w now events)
      (hlast : last.Tells now .error .formulaFailed
        [("formula", .text f.name), ("kind", .text e.kind.name)] e.message) :
      Tells w now (.execute name context) (.error (.evaluation e)) (events ++ [last])

/-- The events that belong to the outcomes of some calls, one after the other. -/
inductive TellsAll (w : Workbook) :
    List (String × Call) → List (Except Failure Reply) → List Event → Prop
  | nil : TellsAll w [] [] []
  | cons {now : String} {call : Call} {outcome : Except Failure Reply} {events : List Event}
      {calls : List (String × Call)} {outcomes : List (Except Failure Reply)} {later : List Event}
      (first : Tells w now call outcome events) (rest : TellsAll w calls outcomes later) :
      TellsAll w ((now, call) :: calls) (outcome :: outcomes) (events ++ later)

/-! ### What one call reports -/

section Reports

variable {w : Workbook} {now : String} {precision : Int} {digits : Nat}

theorem tellsResolution (w : Workbook) (now : String) :
    TellsResolution w now (w.resolutionEvents now w.resolution) := by
  refine ⟨_, _, rfl, ?_, ⟨rfl, rfl, rfl, rfl, rfl⟩⟩
  rw [List.forall₂_map_right_iff, List.forall₂_same]
  exact fun entry _ => ⟨rfl, rfl, rfl, rfl, rfl⟩

/-- With a precision that can be used, every number has a shown form. -/
theorem exists_format (hprecision : w.config.precision = .ok precision)
    (hdigits : significantDigits precision = .ok digits) (x : Float) :
    ∃ shown, w.format x = .ok shown := by
  unfold Workbook.format
  rw [hprecision]
  show ∃ shown, (formatNumber x precision).mapError Failure.precision = .ok shown
  unfold formatNumber
  rw [hdigits]
  cases Decimal.integer? x with
  | some n => exact ⟨_, rfl⟩
  | none => exact ⟨_, rfl⟩

/-- **A call reports the events that belong to its outcome.** -/
theorem tells_traced (hprecision : w.config.precision = .ok precision)
    (hdigits : significantDigits precision = .ok digits) (now : String) (call : Call) :
    Tells w now call (call.traced w now).outcome (call.traced w now).events := by
  cases call with
  | resolve => exact .resolve (tellsResolution w now)
  | execute name context =>
    cases hf : w.formulas.find? (·.name == normalizeName name) with
    | none =>
      have hformula : w.formula? name = .error (.unknownFormula (normalizeName name)) := by
        simp [Workbook.formula?, hf]
      simp only [Call.traced, Workbook.execute, hformula]
      exact .unknown (by simpa using hf)
    | some f =>
      have hformula : w.formula? name = .ok f := by simp [Workbook.formula?, hf]
      simp only [Call.traced, Workbook.execute, hformula]
      cases hvalue : execute f.expression context w.resolution.values w.resolution.errors with
      | error e => exact .failed hf hvalue (tellsResolution w now) ⟨rfl, rfl, rfl, rfl, rfl⟩
      | ok x =>
        obtain ⟨shown, hshown⟩ := exists_format hprecision hdigits x
        simp only [hshown]
        exact .executed hf hvalue hshown (tellsResolution w now) ⟨rfl, rfl, rfl, rfl, rfl⟩

end Reports

/-! ### Events that are complete -/

/-- An event that is written as it was reported, without a list of missing keys. -/
def Event.IsComplete (e : Event) : Prop :=
  e.checked = e ∧ e.context.lookup Event.missingKey = none

section Complete

variable {w : Workbook} {now : String} {e : Event} {events : List Event}

theorem Event.Tells.isComplete {level : EventLevel} {type : EventType}
    {context : List (String × Json)} {message : String}
    (h : e.Tells now level type context message)
    (hkeys : type.required.all (fun key => (context.lookup key).isSome) = true)
    (hmissing : context.lookup Event.missingKey = none) : e.IsComplete := by
  refine ⟨Event.checked_of_carries fun key hkey => ?_, by rw [h.context, hmissing]⟩
  rw [h.type] at hkey
  rw [Event.Carries, h.context]
  exact isSome_lookup.1 (List.all_eq_true.1 hkeys key hkey)

theorem TellsResolution.isComplete (h : TellsResolution w now events) :
    ∀ e ∈ events, e.IsComplete := by
  obtain ⟨warnings, last, rfl, hwarnings, hlast⟩ := h
  have hcomplete : ∀ e ∈ warnings, e.IsComplete := by
    generalize w.resolution.errors = entries at hwarnings
    induction hwarnings with
    | nil => simp
    | cons htells _ ih => exact List.forall_mem_cons.2 ⟨htells.isComplete rfl rfl, ih⟩
  exact List.forall_mem_append.2 ⟨hcomplete, List.forall_mem_singleton.2 (hlast.isComplete rfl rfl)⟩

/-- No call reports an event that lacks a key. -/
theorem Tells.isComplete {call : Call} {outcome : Except Failure Reply}
    (h : Tells w now call outcome events) : ∀ e ∈ events, e.IsComplete := by
  cases h with
  | resolve h => exact h.isComplete
  | unknown => simp
  | executed _ _ _ h hlast | failed _ _ h hlast =>
    exact List.forall_mem_append.2
      ⟨h.isComplete, List.forall_mem_singleton.2 (hlast.isComplete rfl rfl)⟩

theorem TellsAll.isComplete {calls : List (String × Call)} {outcomes : List (Except Failure Reply)}
    (h : TellsAll w calls outcomes events) : ∀ e ∈ events, e.IsComplete := by
  induction h with
  | nil => simp
  | cons first _ ih => exact List.forall_mem_append.2 ⟨first.isComplete, ih⟩

end Complete

/-! ### Rows of calls -/

section Rows

variable {w : Workbook} {ws : Workspace} {s : Sink} {files : Files} {calls : List (String × Call)}

/-- The events that some calls report, one after the other. -/
def reported (w : Workbook) (calls : List (String × Call)) : List Event :=
  calls.flatMap fun c => (c.2.traced w c.1).events

theorem reported_cons (w : Workbook) (now : String) (call : Call) (calls : List (String × Call)) :
    reported w ((now, call) :: calls) = (call.traced w now).events ++ reported w calls :=
  List.flatMap_cons

/-- Some calls have the outcomes of their runs, and what they report is recorded. -/
theorem performAll_eq (w : Workbook) (calls : List (String × Call)) (ws : Workspace) :
    ∃ now, performAll w calls ws =
      (calls.map fun c => (c.2.traced w c.1).outcome,
        { ws.recordAll (reported w calls) with now }) := by
  induction calls generalizing ws with
  | nil => exact ⟨ws.now, rfl⟩
  | cons c calls ih =>
    obtain ⟨now, call⟩ := c
    obtain ⟨last, hlast⟩ := ih ({ ws.recordAll (call.traced w now).events with now })
    refine ⟨last, ?_⟩
    rw [performAll, Call.run_perform]
    simp only [Workspace.recordAll_at]
    rw [hlast, Workspace.recordAll_at, reported_cons, Workspace.recordAll_append]
    rfl

theorem performAll_of_writes (hsink : ws.sink = some s)
    (hwrites : (reported w calls).foldlM (fun files e => s.write e.checked files) ws.files =
      .ok files) :
    ∃ now, performAll w calls ws =
      (calls.map fun c => (c.2.traced w c.1).outcome, { ws with files, now }) := by
  obtain ⟨now, hperform⟩ := performAll_eq w calls ws
  exact ⟨now, by rw [hperform, Workspace.recordAll_of_writes hsink hwrites]⟩

theorem tellsAll_reported {precision : Int} {digits : Nat}
    (hprecision : w.config.precision = .ok precision)
    (hdigits : significantDigits precision = .ok digits) (calls : List (String × Call)) :
    TellsAll w calls (calls.map fun c => (c.2.traced w c.1).outcome) (reported w calls) := by
  induction calls with
  | nil => exact .nil
  | cons c calls ih => exact .cons (tells_traced hprecision hdigits c.1 c.2) ih

/-- **The log of a row of calls.** If the precision of a workbook can be used and its events can be
written, then each call adds to the log the events that belong to its outcome, in order, and nothing
else is added. No event lacks a key, so each is written as it was reported. -/
theorem content_performAll {precision : Int} {digits : Nat} {before : List UInt8}
    (hprecision : w.config.precision = .ok precision)
    (hdigits : significantDigits precision = .ok digits) (hsink : ws.sink = some s)
    (hcontent : s.content ws.files = .ok before)
    (hwrites : (reported w calls).foldlM (fun files e => s.write e.checked files) ws.files =
      .ok files) :
    ∃ events, TellsAll w calls (performAll w calls ws).1 events ∧
      s.content (performAll w calls ws).2.files = .ok (before ++ events.flatMap Event.line) ∧
      ∀ e ∈ events, e.checked = e ∧ e.context.lookup Event.missingKey = none := by
  obtain ⟨now, hrun⟩ := performAll_of_writes hsink hwrites
  have htells := tellsAll_reported hprecision hdigits calls
  have hcomplete := htells.isComplete
  have hchecked : (reported w calls).map Event.checked = reported w calls :=
    (List.map_congr_left fun e he => (hcomplete e he).1).trans (List.map_id _)
  have hlines : ((reported w calls).map Event.checked).foldlM (fun files e => s.write e files)
      ws.files = .ok files := by
    rw [List.foldlM_map]
    exact hwrites
  rw [hchecked] at hlines
  rw [hrun]
  exact ⟨reported w calls, htells, Sink.content_writes hlines hcontent, hcomplete⟩

end Rows

/-- A variable without a value, a formula with a value, and one without. -/
def payroll : Workbook where
  config := .default
  vars := [⟨"RATE", .known .constant, "20"⟩, ⟨"PAY", .known .dynamic, "RATE * HOURS"⟩]
  formulas := [⟨"DAY", "RATE * \x7b\x7b#N\x7d\x7d"⟩, ⟨"SHARE", "RATE / 0"⟩]

/-- Calls for both formulas and for one that is not there. -/
def payrollCalls : List (String × Call) :=
  [("1", .resolve), ("2", .execute "day" [("N", "8")]), ("3", .execute "none" []),
    ("4", .execute "SHARE" [])]

/-- The log of a payroll. -/
def payrollLog : Sink := { directory := ["", "payroll"] }

/-- A workspace without files, in which the log is attached. -/
def payrollDesk : Workspace := { sink := some payrollLog, now := "0" }

theorem content_performAll_payroll :
    payroll.config.precision = .ok 10 ∧ significantDigits 10 = .ok 10 ∧
    payrollLog.content payrollDesk.files = .ok [] ∧
    ∃ files, (reported payroll payrollCalls).foldlM
        (fun files e => payrollLog.write e.checked files) payrollDesk.files = .ok files ∧
      ∃ events,
        TellsAll payroll payrollCalls (performAll payroll payrollCalls payrollDesk).1 events ∧
        payrollLog.content (performAll payroll payrollCalls payrollDesk).2.files =
          .ok (events.flatMap Event.line) ∧
        ∀ e ∈ events, e.checked = e ∧ e.context.lookup Event.missingKey = none := by
  have hprecision : payroll.config.precision = .ok 10 := rfl
  have hdigits : significantDigits 10 = .ok 10 := by decide +kernel
  have hcontent : payrollLog.content payrollDesk.files = .ok [] := rfl
  have hwrites : ((reported payroll payrollCalls).foldlM
      (fun files e => payrollLog.write e.checked files) payrollDesk.files).toOption.isSome =
        true := by
    decide +kernel
  obtain ⟨files, hfiles⟩ := Option.isSome_iff_exists.1 hwrites
  have hall := mem_toOption.1 hfiles
  exact ⟨hprecision, hdigits, hcontent, files, hall,
    content_performAll hprecision hdigits rfl hcontent hall⟩

end FormulaBook
