import FormulaBook.Proofs.CommandLine.Task
import FormulaBook.Proofs.CommandLine.Words
import FormulaBook.Proofs.Lexing.Placeholders

/-!
# Executions on the command line

A formula that is executed on the command line comes to what it comes to in a workbook, in the
context that is made of the items. Blanks at the ends of the names are removed there, so a
placeholder whose name has such blanks is asked for and cannot be bound.

* `shownOutcome`, `run_executeWords`: what is printed for the outcome of an execution;
* `execute_trimmedContext`, `execute_trimmedContext_missing`: names that stay as they are, and the
  first one that does not;
* `run_executeWords_strict`: the outcome for a formula of a strict workbook.
-/

namespace FormulaBook.CommandLine

open Text

/-! ### What is printed -/

/-- What is printed for the outcome of an execution: the shown form of a value, or the message of an
error or of an unknown name. All other failures leave the command. -/
def shownOutcome (w : Workbook) : Except Failure Float → Outcome
  | .ok x =>
    match w.format x with
    | .ok shown => .printed 0 (shown ++ "\n")
    | .error e => .escaped e
  | .error e =>
    if e.sort == .evaluation || e.sort == .badKey then
      .printed 1 ("Error: " ++ spellHalves e.message ++ "\n")
    else .escaped e

section Printing

variable {ws : Workspace} {text name : String} {directory : Path} {w : Workbook}
  {sink : Option Sink} {context : Context}

/-- Only errors of an expression are of that kind. -/
theorem sort_eq_evaluation {e : Failure} (h : e.sort = .evaluation) :
    ∃ cause, e = .evaluation cause := by
  unfold Failure.sort at h
  split at h
  all_goals first | cases h | skip
  · split at h <;> cases h
  · exact ⟨_, rfl⟩

/-- The output of an execution is shown to a person. -/
theorem ofOutput_executionOutput (w : Workbook) (name : String) (r : Except Failure Float) :
    Outcome.ofOutput (executionOutput w name false r) = shownOutcome w r := by
  cases r with
  | error e =>
    by_cases hsort : e.sort = .evaluation
    · obtain ⟨cause, rfl⟩ := sort_eq_evaluation hsort
      rfl
    · have hstop : Command.executionStop name false e = Job.shownIf (·.sort == .badKey) e := by
        cases e with
        | evaluation cause => exact absurd rfl hsort
        | _ => rfl
      rw [executionOutput, hstop, Job.shownIf, shownOutcome, beq_false_of_ne hsort, Bool.false_or]
      split <;> rfl
  | ok x =>
    rw [executionOutput, if_neg Bool.false_ne_true, shownOutcome]
    cases hshown : w.format x with
    | error e => rfl
    | ok shown =>
      have hascii : IsAscii (shown ++ "\n") := (isAscii_of_format hshown).append (by decide)
      exact if_neg (by rw [holdsHalf_of_ascii hascii]; exact Bool.false_ne_true)

/-- The words that execute a formula print its outcome in the context of the items. -/
theorem run_executeWords (hdirectory : ExceptT.run (Job.directory text) ws = (.ok directory, ws))
    (hoption : Words.isOption text = false) (hname : Words.isOption name = false)
    (hload : Workbook.load ws.files directory = .ok w)
    (hsink : w.config.sink? directory = .ok sink)
    (hequals : ∀ binding ∈ context, '=' ∉ binding.1.toList) :
    (run (executeWords text name context) ws).1 =
      shownOutcome w (w.execute ws.now name (trimmedContext context)).outcome := by
  have hcommand : Command.ofWords? (executeWords text name context) =
      some (Task.command text (.execute name (context.map item) false)) :=
    ofWords?_executeWords hoption hname context
  rw [run_task hcommand hdirectory, hload]
  dsimp only
  rw [hsink]
  dsimp only [Task.output]
  rw [context_items hequals]
  exact ofOutput_executionOutput w name _

end Printing

/-! ### Names with blanks at their ends -/

section Names

variable {expression name : String} {context : Context} {values : List (String × Float)}
  {errors : List (String × String)} {tokens : List Token}

/-- A context that binds the names of an expression, each once and to a number. -/
structure Supplies (context : Context) (expression : String) : Prop where
  names : (context.map (·.1)).Perm (contextNames expression)
  numbers : ∀ binding ∈ context, IsNumberText binding.2

theorem trim_of_isNumberText {s : String} (h : IsNumberText s) : trim s = s := by
  rw [← String.toList_inj, toList_trim]
  exact trimBy_eq_self_of_forall fun c hc => not_isBlank_of_isNumberChar (h.2 c hc)

namespace Supplies

variable (h : Supplies context expression)

include h

theorem nodup : (context.map (·.1)).Nodup := by
  rw [h.names.nodup_iff, contextNames]
  exact nodup_eraseDups _

/-- Names that stay as they are keep their bindings. -/
theorem execute_trimmedContext (htrim : ∀ name ∈ contextNames expression, trim name = name) :
    execute expression (trimmedContext context) values errors =
      execute expression context values errors := by
  refine execute_congr_binding fun name hname => ?_
  have hall : ∀ binding ∈ context, trim binding.1 = binding.1 := fun binding hmem =>
    htrim binding.1 (h.names.subset (List.mem_map_of_mem hmem))
  rw [Context.binding, Context.binding,
    lookup_trimmedContext_eq h.nodup hall (h.names.mem_iff.2 hname)]

/-- A name that stays as it is is bound to a number, though perhaps not to its own. -/
theorem isNumberText_binding (hname : name ∈ contextNames expression) (htrim : trim name = name) :
    IsNumberText ((trimmedContext context).binding name) := by
  obtain ⟨binding, hmem, hlookup⟩ :=
    exists_lookup_trimmedContext (h.names.mem_iff.2 hname) htrim
  have hnumber := h.numbers binding hmem
  rw [Context.binding, hlookup, Option.getD_some, trim_of_isNumberText hnumber]
  exact hnumber

theorem isNumberText_own (hname : name ∈ contextNames expression) :
    IsNumberText (context.binding name) := by
  obtain ⟨binding, hmem, rfl⟩ := List.mem_map.1 (h.names.mem_iff.2 hname)
  have hnumber := h.numbers binding hmem
  rw [Context.binding, lookup_of_mem h.nodup hmem, Option.getD_some, trim_of_isNumberText hnumber]
  exact hnumber

/-- The first name that does not stay as it is is missing. -/
theorem execute_trimmedContext_missing (htokens : tokenize expression = .ok tokens)
    (hfirst : (contextNames expression).find? (fun name => trim name != name) = some name) :
    execute expression (trimmedContext context) values errors =
      .error (.missingContextValue name) := by
  rw [contextNames_of_tokenize htokens, find?_eraseDups, placeholdersOf, List.find?_map,
    List.find?_filter, Option.map_eq_some_iff] at hfirst
  obtain ⟨t, hfound, rfl⟩ := hfirst
  obtain ⟨ht, before, after, rfl, hbefore⟩ := List.find?_eq_some_iff_append.1 hfound
  simp only [decide_eq_true_eq, Function.comp_apply, bne_iff_ne] at ht
  obtain ⟨hk, htrim⟩ := ht
  -- The placeholders before this one are bound, so the error is its own.
  have hbound : ∀ u ∈ before, ∃ u', (if u.kind == .placeholder then
      bindPlaceholder (trimmedContext context) u else .ok u) = .ok u' := by
    intro u hu
    by_cases hplaceholder : u.kind = .placeholder
    · have hstays : trim u.placeholderName = u.placeholderName := by
        simpa [hplaceholder] using hbefore u hu
      have hlisted := (mem_contextNames htokens).2
        ⟨u, List.mem_append_left _ hu, hplaceholder, rfl⟩
      refine ⟨u.bound (trimmedContext context), ?_⟩
      rw [hplaceholder, beq_self_eq_true, if_pos rfl]
      exact bindPlaceholder_eq_ok hplaceholder (h.isNumberText_binding hlisted hstays)
    · exact ⟨u, by simp [hplaceholder]⟩
  have hmissing : bindPlaceholder (trimmedContext context) t =
      .error (.missingContextValue t.placeholderName) := by
    have hnone := @lookup_trimmedContext_of_trim_ne context _ htrim
    simp [bindPlaceholder, hnone, trim]
  have hbind : bindContext (trimmedContext context) (before ++ t :: after) =
      .error (.missingContextValue t.placeholderName) :=
    mapM_eq_error.2 ⟨before, t, after, rfl, hbound, by rw [hk, if_pos rfl, hmissing]⟩
  rw [execute_of_tokenize htokens, hbind]
  rfl

end Supplies

end Names

/-! ### Formulas of a strict workbook -/

section Strict

variable {ws : Workspace} {text : String} {directory : Path} {w : Workbook}
  {sink : Option Sink} {context : Context} {f : Formula}

theorem isOption_of_isNameChars {name : String} (h : isNameChars name.toList = true) :
    Words.isOption name = false := by
  unfold Words.isOption
  split
  · rename_i c rest heq
    rw [heq] at h
    exact absurd h (by simp [isNameChars, isNameStart])
  · rfl

theorem not_mem_of_isFormulaChar {l : List Char} (h : ∀ c ∈ l, isFormulaChar c = true) :
    '=' ∉ l := fun hmem => absurd (h '=' hmem) (by decide)

/-- What a formula comes to in two contexts in which its expression comes to the same. -/
theorem outcome_execute_congr {name : String} {context' : Context} (hf : w.formula? name = .ok f)
    (h : execute f.expression context w.resolution.values w.resolution.errors =
      execute f.expression context' w.resolution.values w.resolution.errors) (now : String) :
    (w.execute now name context).outcome = (w.execute now name context').outcome := by
  simp only [Workbook.execute, hf, h]

/-- The errors of an expression are the errors of its formula, and a formula has no others. -/
theorem outcome_execute_eq_error {name now : String} {e : EvalError}
    (hf : w.formula? name = .ok f) :
    (w.execute now name context).outcome = .error (.evaluation e) ↔
      execute f.expression context w.resolution.values w.resolution.errors = .error e := by
  simp only [Workbook.execute, hf]
  cases execute f.expression context w.resolution.values w.resolution.errors with
  | error e' => simp
  | ok x =>
    dsimp only
    cases hshown : w.format x with
    | ok shown => simp
    | error e' =>
      -- A number that cannot be shown is the fault of the settings.
      obtain hsetting | ⟨precision, -, hformat⟩ := bind_eq_error.1 hshown
      · obtain ⟨cause, -, rfl⟩ := mapError_eq_error.1 hsetting
        simp
      · obtain ⟨cause, -, rfl⟩ := mapError_eq_error.1 hformat
        simp

/-- **The outcome of a formula of a strict workbook on the command line.** One item for each name
that the formula asks for binds the names to digits and points. If no name has blanks at its ends,
or if the expression cannot be cut into tokens, what is printed is the outcome of the execution in
this context. Otherwise the first name with blanks at its ends is said to be missing, while in this
context the execution fails for no name. -/
theorem run_executeWords_strict
    (hdirectory : ExceptT.run (Job.directory text) ws = (.ok directory, ws))
    (hoption : Words.isOption text = false) (hload : Workbook.load ws.files directory = .ok w)
    (hstrict : w.config.isStrict = true) (hsink : w.config.sink? directory = .ok sink)
    (hf : f ∈ w.formulas) (hnames : (context.map (·.1)).Perm (contextNames f.expression))
    (hnumbers : ∀ binding ∈ context, IsNumberText binding.2) :
    let printed := (run (executeWords text f.name context) ws).1
    let outcome := (w.execute ws.now f.name context).outcome
    ((∀ name ∈ contextNames f.expression, trim name = name) ∨
      (∃ e, tokenize f.expression = .error e) → printed = shownOutcome w outcome) ∧
    ∀ tokens name, tokenize f.expression = .ok tokens →
      (contextNames f.expression).find? (fun name => trim name != name) = some name →
        printed = .printed 1
          ("Error: " ++ spellHalves (EvalError.missingContextValue name).message ++ "\n") ∧
        ∀ e other, outcome = .error (.evaluation e) → ¬ e.AboutBinding other := by
  have hloads := Workbook.loads_of_load hload
  have hfound := hloads.formula?_name hstrict hf
  have hsupplies : Supplies context f.expression := ⟨hnames, hnumbers⟩
  have hequals : ∀ binding ∈ context, '=' ∉ binding.1.toList := fun binding hmem hc =>
    not_mem_of_isFormulaChar (hloads.isFormulaChar_expression hstrict hf)
      (mem_of_mem_contextNames (hnames.subset (List.mem_map_of_mem hmem)) hc)
  have hprinted := run_executeWords hdirectory hoption
    (isOption_of_isNameChars (hloads.isNameChars_name hstrict hf)) hload hsink hequals
  intro printed outcome
  refine ⟨fun hbound => ?_, fun tokens name htokens hfirst => ⟨?_, ?_⟩⟩
  · have hsame : execute f.expression (trimmedContext context) w.resolution.values
        w.resolution.errors =
          execute f.expression context w.resolution.values w.resolution.errors := by
      obtain htrim | ⟨e, he⟩ := hbound
      · exact hsupplies.execute_trimmedContext htrim
      · rw [execute_of_tokenize_error he, execute_of_tokenize_error he]
    exact hprinted.trans (congrArg (shownOutcome w) (outcome_execute_congr hfound hsame ws.now))
  · have hmissing : execute f.expression (trimmedContext context) w.resolution.values
        w.resolution.errors = .error (.missingContextValue name) :=
      hsupplies.execute_trimmedContext_missing htokens hfirst
    exact hprinted.trans
      (congrArg (shownOutcome w) ((outcome_execute_eq_error hfound).2 hmissing))
  · intro e other he habout
    obtain ⟨hlisted, hnumber⟩ :=
      of_execute_aboutBinding ((outcome_execute_eq_error hfound).1 he) habout
    exact hnumber (hsupplies.isNumberText_own hlisted)

end Strict

/-- A project with two formulas. One of them asks for a name with a blank in front of it. -/
def kiosk : Workspace where
  files := ⟨[([""], .directory), (["", "kiosk"], .directory),
    (["", "kiosk", "workbook.yaml"], .file (octets ("formulas:\n" ++
      "- \x7bname: share, expression: \"100 / \x7b\x7b#PARTS\x7d\x7d\"\x7d\n" ++
      "- \x7bname: total, expression: " ++
        "\"\x7b\x7b#PRICE\x7d\x7d * \x7b\x7b# PRICE\x7d\x7d\"\x7d\n")))]⟩
  current := ["", "kiosk"]
  now := "0"

theorem run_executeWords_strict_kiosk :
    (run (executeWords "." "SHARE" [("PARTS", "8.")]) kiosk).1 = .printed 0 "12.5\n" ∧
    (run (executeWords "." "TOTAL" [(" PRICE", "5"), ("PRICE", "2")]) kiosk).1 =
      .printed 1 "Error: Context value for \" PRICE\" is required.\n" := by
  have hdirectory : ExceptT.run (Job.directory ".") kiosk = (.ok ["", "kiosk"], kiosk) :=
    run_directory_dot rfl
  have hloaded : (Workbook.load kiosk.files ["", "kiosk"]).toOption.any (fun w =>
      w.config.isStrict && (w.config.sink? ["", "kiosk"]).toOption.isSome &&
        w.formulas.contains ⟨"SHARE", "100 / \x7b\x7b#PARTS\x7d\x7d"⟩ &&
        w.formulas.contains ⟨"TOTAL", "\x7b\x7b#PRICE\x7d\x7d * \x7b\x7b# PRICE\x7d\x7d"⟩ &&
        ((w.execute kiosk.now "SHARE" [("PARTS", "8.")]).outcome.bind w.format).toOption ==
          some "12.5") = true := by
    decide +kernel
  obtain ⟨w, hw, hfacts⟩ := (Option.any_eq_true _ _).1 hloaded
  have hload : Workbook.load kiosk.files ["", "kiosk"] = .ok w := mem_toOption.1 hw
  simp only [Bool.and_eq_true, beq_iff_eq] at hfacts
  obtain ⟨⟨⟨⟨hstrict, hattaches⟩, hfirst⟩, hsecond⟩, hshown⟩ := hfacts
  obtain ⟨sink, hsink⟩ := Option.isSome_iff_exists.1 hattaches
  have hsink : w.config.sink? ["", "kiosk"] = .ok sink := mem_toOption.1 hsink
  constructor
  · have hprinted : (run (executeWords "." "SHARE" [("PARTS", "8.")]) kiosk).1 =
        shownOutcome w (w.execute kiosk.now "SHARE" [("PARTS", "8.")]).outcome :=
      (run_executeWords_strict hdirectory (by decide) hload hstrict hsink
        (List.contains_iff_mem.1 hfirst) (by decide +kernel) (by decide +kernel)).1
          (Or.inl (by decide +kernel))
    obtain ⟨x, houtcome, hformat⟩ := bind_eq_ok.1 (mem_toOption.1 hshown)
    rw [hprinted, houtcome, shownOutcome, hformat]
    rfl
  · obtain ⟨tokens, htokens⟩ : ∃ tokens,
        tokenize "\x7b\x7b#PRICE\x7d\x7d * \x7b\x7b# PRICE\x7d\x7d" = .ok tokens :=
      (Option.isSome_iff_exists.1 (by decide +kernel)).imp fun _ => mem_toOption.1
    exact ((run_executeWords_strict hdirectory (by decide) hload hstrict hsink
      (List.contains_iff_mem.1 hsecond) (by decide +kernel) (by decide +kernel)).2 tokens " PRICE"
        htokens (by decide +kernel)).1

end FormulaBook.CommandLine
