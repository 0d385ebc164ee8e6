import FormulaBook.Proofs.Project.Recording
import FormulaBook.Proofs.Session.Contents
import FormulaBook.Session.Basic

/-!
# What a session answers from

A session answers from the workbook that it loaded last. While it is open, the two files of its
project may be edited in any way, also into something that is no workbook.

* `Session.Question`, `Session.ask`: what a session can be asked;
* `Session.exists_yields_ask`: a question has one answer, whatever the workspace is;
* `Session.Step`, `Session.follow`: edits, reloads and questions, one after the other;
* `Snapshot`, `Snapshot.follow`: the outcomes, told from the contents of the two files alone;
* `Snapshot.Shows`, `Snapshot.Shows.step`: each step of a session is a step of its snapshot;
* `follow_eq_snapshot`: a session follows its snapshot, and a refused reload changes nothing.
-/

namespace FormulaBook

namespace Session

/-! ### Questions -/

/-- What a session can be asked. -/
inductive Question where
  | info
  | variableRows
  | formulaRows
  | execute (name : String) (context : Context)
  | evaluate (text : String)

/-- What a session answers. -/
inductive Answer where
  | info (i : ProjectInfo)
  | variableRows (rows : List VariableRow)
  | formulaRows (rows : List FormulaRow)
  | execution (a : FormulaAnswer)
  | evaluation (r : Except EvalError Shown)

/-- The answer to a question. -/
def ask (s : Session) : Question → Action Answer
  | .info => return .info s.info
  | .variableRows => return .variableRows (← s.variableRows)
  | .formulaRows => return .formulaRows (← s.formulaRows)
  | .execute name context => return .execution (← s.execute name context)
  | .evaluate text => return .evaluation (← s.evaluate text)

open FormulaBook.Action

/-- What is answered for a formula that fails: an error of its expression is an answer too. -/
def failedAnswer (name : String) : Failure → Except Failure FormulaAnswer
  | .evaluation e => .ok ⟨Text.upper name, .error e⟩
  | e => .error e

theorem exists_yields_execute (s : Session) (name : String) (context : Context) :
    ∃ outcome, Yields (s.execute name context) outcome := by
  have hrun : Yields (ofTraced (s.workbook.execute · name context))
      (s.workbook.execute "" name context).outcome :=
    yields_ofTraced fun now => s.workbook.outcome_execute now "" name context
  have hshown := hrun.bind fun x _ => (yields_liftM (s.shown x)).bind fun shown _ =>
    yields_pure (⟨Text.upper name, .ok shown⟩ : FormulaAnswer)
  refine ⟨_, hshown.tryCatch (failedAnswer name) fun e _ => ?_⟩
  cases e with
  | evaluation e => exact yields_pure _
  | _ => exact yields_throw _

theorem exists_yields_evaluate (s : Session) (text : String) :
    ∃ outcome, Yields (s.evaluate text) outcome := by
  unfold evaluate
  split
  · exact ⟨_, yields_pure _⟩
  · rename_i x _
    have hshown := (yields_liftM (s.shown x)).bind fun shown _ =>
      yields_pure (Except.ok shown : Except EvalError Shown)
    exact ⟨_, (yields_liftM (displayed x)).bind fun display _ =>
      hshown.after_report (evaluatedEvent · text display)⟩

/-- Every question has one answer, whatever the workspace is. -/
theorem exists_yields_ask (s : Session) (q : Question) : ∃ outcome, Yields (s.ask q) outcome := by
  cases q with
  | info => exact ⟨_, yields_pure _⟩
  | variableRows =>
    have hresolve : Yields (ofTraced (s.workbook.resolve ·)) (.ok s.workbook.resolution) :=
      yields_ofTraced fun _ => rfl
    have hrows : Yields s.variableRows _ := hresolve.bind fun r _ =>
      Yields.mapM fun v _ => yields_liftM (s.variableRow r v)
    exact ⟨_, hrows.bind fun rows _ => yields_pure _⟩
  | formulaRows => exact ⟨_, (yields_liftM s.formulaRows).bind fun rows _ => yields_pure _⟩
  | execute name context =>
    obtain ⟨outcome, h⟩ := s.exists_yields_execute name context
    exact ⟨_, h.bind fun a _ => yields_pure _⟩
  | evaluate text =>
    obtain ⟨outcome, h⟩ := s.exists_yields_evaluate text
    exact ⟨_, h.bind fun r _ => yields_pure _⟩

/-! ### Steps -/

/-- What happens while a session is open. -/
inductive Step where
  /-- Something else is put in the place of a file, or the file is removed. -/
  | edit (file : ProjectFile) (entry : Option FileEntry)
  | reload
  | ask (q : Question)

/-- What a step comes to. -/
inductive Outcome where
  | edited
  | reloaded
  | refused (cause : Failure)
  | answered (answer : Except Failure Answer)

/-- The outcome of a step, with the session and the workspace after it. -/
def perform (s : Session) (step : Step) (ws : Workspace) : Outcome × Session × Workspace :=
  match step with
  | .edit file entry =>
    (.edited, s, { ws with files := ws.files.put (file.path s.directory) entry })
  | .reload =>
    match s.reload.run ws with
    | (.ok s', ws') => (.reloaded, s', ws')
    | (.error cause, ws') => (.refused cause, s, ws')
  | .ask q =>
    match (s.ask q).run ws with
    | (answer, ws') => (.answered answer, s, ws')

theorem run_reload (s : Session) (ws : Workspace) : s.reload.run ws =
    match Workbook.load ws.files s.directory with
    | .ok workbook => (.ok { s with workbook }, ws)
    | .error cause => (.error cause, ws) := by
  show ((liftM (Workbook.load ws.files s.directory) : Action Workbook) >>= fun workbook =>
    (pure { s with workbook } : Action Session)).run ws = _
  rw [run_liftM_bind]
  cases Workbook.load ws.files s.directory <;> rfl

/-- The outcomes of some steps, each at its time. -/
def follow (s : Session) : List (String × Step) → Workspace → List Outcome
  | [], _ => []
  | (now, step) :: rest, ws =>
    match s.perform step { ws with now } with
    | (outcome, s', ws') => outcome :: s'.follow rest ws'

end Session

/-! ### Snapshots -/

open Session (Step Outcome Question Answer)

/-- The answer to a question about the project in a directory, from contents that load: what a
session of their workbook answers in a workspace that holds nothing. -/
def answer (directory : Path) (loaded : Contents) (q : Question) : Except Failure Answer := do
  let workbook ← Workbook.load (loaded.files directory) directory
  ((Session.ask ⟨directory, workbook⟩ q).run { now := "" }).1

/-- The contents of the two files when they were loaded last, and those of now. -/
structure Snapshot where
  loaded : Contents
  current : Contents

namespace Snapshot

/-- The outcome of a step, and the contents after it. -/
def perform (directory : Path) (n : Snapshot) : Step → Outcome × Snapshot
  | .edit file entry => (.edited, { n with current := Function.update n.current file entry })
  | .reload =>
    match Workbook.load (n.current.files directory) directory with
    | .ok _ => (.reloaded, { n with loaded := n.current })
    | .error cause => (.refused cause, n)
  | .ask q => (.answered (answer directory n.loaded q), n)

/-- The outcomes of some steps. -/
def follow (directory : Path) (n : Snapshot) : List Step → List Outcome
  | [] => []
  | step :: rest =>
    match n.perform directory step with
    | (outcome, n') => outcome :: n'.follow directory rest

theorem follow_cons (directory : Path) (n : Snapshot) (step : Step) (rest : List Step) :
    n.follow directory (step :: rest) =
      (n.perform directory step).1 :: (n.perform directory step).2.follow directory rest :=
  rfl

/-- The session answers from what the snapshot says was loaded, the files hold what it says stands
there now, and events go to the log of the project, if they are kept. -/
structure Shows (directory : Path) (n : Snapshot) (s : Session) (ws : Workspace) : Prop where
  directory_eq : s.directory = directory
  load_eq : Workbook.load (n.loaded.files directory) directory = .ok s.workbook
  current_eq : Contents.of directory ws.files = n.current
  sink_eq : ∀ sink, ws.sink = some sink → sink.directory = directory

namespace Shows

variable {directory : Path} {n : Snapshot} {s : Session} {ws : Workspace}

theorem at_time (h : n.Shows directory s ws) (now : String) :
    n.Shows directory s { ws with now } :=
  ⟨h.directory_eq, h.load_eq, h.current_eq, h.sink_eq⟩

/-- Events change neither of the two files. -/
theorem recordAll (h : n.Shows directory s ws) (events : List Event) :
    n.Shows directory s (ws.recordAll events) := by
  refine ⟨h.directory_eq, h.load_eq, ?_, ?_⟩
  · rw [← h.current_eq]
    funext file
    exact Workspace.get?_recordAll (fun sink hsink => file.path_apart (h.sink_eq sink hsink)) events
  · rw [Workspace.sink_recordAll]
    exact h.sink_eq

/-- A step of a session is a step of its snapshot. -/
theorem step (h : n.Shows directory s ws) (step : Step) :
    (s.perform step ws).1 = (n.perform directory step).1 ∧
      (n.perform directory step).2.Shows directory (s.perform step ws).2.1
        (s.perform step ws).2.2 := by
  cases step with
  | edit file entry =>
    refine ⟨rfl, h.directory_eq, h.load_eq, ?_, h.sink_eq⟩
    rw [Session.perform, h.directory_eq]
    exact (Contents.of_put ws.files file entry).trans (by rw [h.current_eq]; rfl)
  | reload =>
    have hsame : Workbook.load ws.files s.directory =
        Workbook.load (n.current.files directory) directory := by
      rw [h.directory_eq]
      exact Workbook.load_congr (by rw [h.current_eq, Contents.of_files])
    rw [Session.perform, Session.run_reload, hsame, Snapshot.perform]
    cases hload : Workbook.load (n.current.files directory) directory with
    | error cause => exact ⟨rfl, h⟩
    | ok workbook => exact ⟨rfl, h.directory_eq, hload, h.current_eq, h.sink_eq⟩
  | ask q =>
    obtain ⟨outcome, hyields⟩ := s.exists_yields_ask q
    obtain ⟨events, hrun⟩ := hyields ws
    have hanswer : answer directory n.loaded q = outcome := by
      obtain ⟨quiet, hquiet⟩ := hyields { now := "" }
      rw [answer, h.load_eq, ← h.directory_eq]
      exact congrArg Prod.fst hquiet
    rw [Session.perform, hrun, Snapshot.perform, hanswer]
    exact ⟨rfl, h.recordAll events⟩

theorem follow_eq (h : n.Shows directory s ws) (steps : List (String × Step)) :
    s.follow steps ws = n.follow directory (steps.map (·.2)) := by
  induction steps generalizing n s ws with
  | nil => rfl
  | cons first rest ih =>
    obtain ⟨now, step⟩ := first
    obtain ⟨houtcome, hnext⟩ := (h.at_time now).step step
    rw [Session.follow, List.map_cons, follow_cons, ← houtcome, ← ih hnext]

end Shows

/-- A reload that is refused leaves the snapshot as it was, so its outcome only comes in between. -/
theorem follow_refused {directory : Path} {n : Snapshot} {before after : List Step}
    {cause : Failure} (h : (n.follow directory (before ++ .reload :: after))[before.length]? =
      some (.refused cause)) :
    n.follow directory (before ++ .reload :: after) =
      (n.follow directory (before ++ after)).insertIdx before.length (.refused cause) := by
  induction before generalizing n with
  | nil =>
    rw [List.nil_append, follow_cons, perform] at h ⊢
    cases hload : Workbook.load (n.current.files directory) directory with
    | ok workbook => simp [hload] at h
    | error cause' =>
      simp only [hload, List.length_nil, List.getElem?_cons_zero, Option.some.injEq,
        Outcome.refused.injEq] at h
      subst h
      rfl
  | cons step before ih =>
    rw [List.cons_append, follow_cons] at h ⊢
    rw [List.length_cons, List.getElem?_cons_succ] at h
    rw [ih h]
    rfl

end Snapshot

/-! ### Sessions and snapshots -/

theorem shows_of_start {directory : Path} {ws ws' : Workspace} {s : Session}
    (h : (Session.start directory).run ws = (.ok s, ws')) :
    Snapshot.Shows directory ⟨Contents.of directory ws.files, Contents.of directory ws.files⟩
      s ws' := by
  have hstart : (Session.start directory).run ws =
      ((liftM (Workbook.load ws.files directory) : Action Workbook) >>= fun workbook =>
        Action.attach directory >>= fun _ =>
          (pure ⟨directory, workbook⟩ : Action Session)).run ws :=
    rfl
  rw [hstart, run_liftM_bind] at h
  cases hload : Workbook.load ws.files directory with
  | error e =>
    rw [hload] at h
    cases h
  | ok workbook =>
    simp only [hload, run_bind, Action.run_attach] at h
    cases hsink : (Config.load ws.files directory).bind (·.sink? directory) with
    | error e =>
      rw [hsink] at h
      cases h
    | ok sink =>
      rw [hsink] at h
      cases h
      refine ⟨rfl, ?_, rfl, fun own hown => ?_⟩
      · rw [← hload]
        exact Workbook.load_congr (Contents.of_files _ _)
      · obtain ⟨config, -, hsink⟩ := bind_eq_ok.1 hsink
        cases hown
        exact Config.directory_of_sink? hsink

/-- **A session answers from a snapshot.** Whatever is done to the two files while a session is
open, each answer is that of the contents of the two files when they were loaded last. A reload that
is refused, for whatever cause, changes no other outcome. -/
theorem follow_eq_snapshot {directory : Path} {ws ws' : Workspace} {s : Session}
    (hstart : (Session.start directory).run ws = (.ok s, ws')) :
    (∀ steps : List (String × Step), s.follow steps ws' =
      Snapshot.follow directory ⟨Contents.of directory ws.files, Contents.of directory ws.files⟩
        (steps.map (·.2))) ∧
    ∀ before now after cause,
      (s.follow (before ++ (now, .reload) :: after) ws')[before.length]? = some (.refused cause) →
      s.follow (before ++ (now, .reload) :: after) ws' =
        (s.follow (before ++ after) ws').insertIdx before.length (.refused cause) := by
  have hshows := shows_of_start hstart
  refine ⟨hshows.follow_eq, fun before now after cause hrefused => ?_⟩
  rw [hshows.follow_eq, List.map_append, List.map_cons] at hrefused ⊢
  rw [hshows.follow_eq, List.map_append, ← List.length_map (fun c : String × Step => c.2)]
  exact Snapshot.follow_refused (by rw [List.length_map]; exact hrefused)

/-- A project with one constant. -/
def solo : Files :=
  ⟨[(["", "solo", "workbook.yaml"],
    .file (Text.octets "variables: [\x7bname: A, type: CONSTANT, expression: 1\x7d]"))]⟩

/-- Octets that are no text: a comment with a letter that is one octet wide. -/
def latinComment : FileEntry := .file [0x23, 0x20, 0xE9, 0x0A]

/-- The file of the definitions is removed, and then its content is no text, which shows only where
it is to be loaded. -/
def soloSteps : List (String × Step) :=
  [("1", .edit .workbook none), ("2", .reload), ("3", .edit .workbook (some latinComment)),
    ("4", .reload), ("5", .ask .info)]

theorem follow_eq_snapshot_solo : ∃ s ws',
    (Session.start ["", "solo"]).run { files := solo, now := "0" } = (.ok s, ws') ∧
    s.workbook.vars.length = 1 ∧
    s.follow soloSteps ws' = [.edited, .refused (.workbookMissing ["", "solo"]), .edited,
      .refused (.notText ⟨.continuation, 0xE9, 2, 3⟩), .answered (.ok (.info s.info))] := by
  have hopen : ((Session.start ["", "solo"]).run { files := solo, now := "0" }).1.toOption.any
      (·.workbook.vars.length == 1) = true := by
    decide +kernel
  obtain ⟨s, hs, hcount⟩ := (Option.any_eq_true _ _).1 hopen
  have hstart : (Session.start ["", "solo"]).run { files := solo, now := "0" } =
      (.ok s, ((Session.start ["", "solo"]).run { files := solo, now := "0" }).2) :=
    Prod.ext (mem_toOption.1 hs) rfl
  refine ⟨s, _, hstart, beq_iff_eq.1 hcount, ?_⟩
  rw [(follow_eq_snapshot hstart).1 soloSteps]
  have hshows := shows_of_start hstart
  have hmissing : Workbook.load (Contents.files ["", "solo"]
      (Function.update (Contents.of ["", "solo"] solo) .workbook none)) ["", "solo"] =
      .error (.workbookMissing ["", "solo"]) := rfl
  have hlatin : Workbook.load (Contents.files ["", "solo"]
      (Function.update (Contents.of ["", "solo"] solo) .workbook (some latinComment)))
      ["", "solo"] = .error (.notText ⟨.continuation, 0xE9, 2, 3⟩) := rfl
  have hanswer : answer ["", "solo"] (Contents.of ["", "solo"] solo) .info =
      .ok (.info s.info) := by
    rw [answer, hshows.load_eq, ← hshows.directory_eq]
    rfl
  simp [soloSteps, Snapshot.follow_cons, Snapshot.perform, Snapshot.follow, hmissing, hlatin,
    hanswer]

end FormulaBook
