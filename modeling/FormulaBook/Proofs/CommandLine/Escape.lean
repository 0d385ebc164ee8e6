import FormulaBook.Proofs.CommandLine.Task
import FormulaBook.Proofs.CommandLine.Words
import FormulaBook.Proofs.Json.RoundTrip
import FormulaBook.Proofs.Lexing.Placeholders
import FormulaBook.Proofs.Resolution.Totality

/-!
# Failures that leave a command

A task that is asked of a project ends with its output or with a message, unless a failure leaves
the command. There are four ways out: the files do not load for a reason that is not reported, the
size of the window of the log is no number, a number cannot be shown, and the output holds half of a
pair.

* `Unshowable`, `format_eq_error`: why a number cannot be shown;
* `holdsHalf_listing`, `holdsHalf_variableLine`, `holdsHalf_formulaText`: the halves in a list;
* `Unshown`, `Broken`, `Complains`: the failures on the way to the output of a task, the outputs
  that hold half of a pair, and what is printed in the place of an output;
* `Comes`, `comes_output`: how each task comes out for a workbook;
* `Escapes`, `Reports`, `run_task_escapes`: the failures that leave a command, what it prints of the
  others, and no outcome is left out.
-/

namespace FormulaBook.CommandLine

open Text

/-! ### Settings -/

section Settings

variable {w : Workbook} {x : Float} {e e' : Failure}

theorem sink?_eq_error {c : Config} {directory : Path} : c.sink? directory = .error e ↔
    c.keepsEvents = true ∧ ∃ cause, c.window = .error cause ∧ e = .setting cause := by
  unfold Config.sink?
  cases c.keepsEvents with
  | false => simp
  | true => cases c.window <;> simp [eq_comm]

/-- Why a number cannot be shown: its precision is not known, or it is not whole and the precision
cannot be used. -/
inductive Unshowable (c : Config) (x : Float) : Failure → Prop
  | setting {cause : SettingError} (h : c.precision = .error cause) :
      Unshowable c x (.setting cause)
  | precision {digits : Int} {cause : PrecisionError} (hdigits : c.precision = .ok digits)
      (hx : Decimal.integer? x = none) (h : significantDigits digits = .error cause) :
      Unshowable c x (.precision cause)

theorem format_eq_error : w.format x = .error e ↔ Unshowable w.config x e := by
  constructor
  · intro h
    obtain hsetting | ⟨digits, hdigits, hformat⟩ := bind_eq_error.1 h
    · obtain ⟨cause, hcause, rfl⟩ := mapError_eq_error.1 hsetting
      exact .setting hcause
    · obtain ⟨cause, hcause, rfl⟩ := mapError_eq_error.1 hformat
      unfold formatNumber at hcause
      split at hcause
      · cases hcause
      · rename_i hx
        exact .precision (mapError_eq_ok.1 hdigits) hx (map_eq_error.1 hcause)
  · rintro (⟨h⟩ | ⟨hdigits, hx, h⟩)
    · exact bind_eq_error.2 (.inl (mapError_eq_error.2 ⟨_, h, rfl⟩))
    · refine bind_eq_error.2 (.inr ⟨_, mapError_eq_ok.2 hdigits, mapError_eq_error.2 ⟨_, ?_, rfl⟩⟩)
      rw [formatNumber, hx]
      exact map_eq_error.2 h

/-- All numbers that cannot be shown under some settings fail in the same way. -/
theorem Unshowable.unique {c : Config} {y : Float} (h : Unshowable c x e)
    (h' : Unshowable c y e') : e = e' := by
  cases h with
  | setting h =>
    cases h' with
    | setting h' => cases h.symm.trans h'; rfl
    | precision hdigits => cases h.symm.trans hdigits
  | precision hdigits _ h =>
    cases h' with
    | setting h' => cases hdigits.symm.trans h'
    | precision hdigits' _ h' =>
      cases hdigits.symm.trans hdigits'
      cases h.symm.trans h'
      rfl

end Settings

/-! ### Lists -/

section Lists

variable {α : Type} {nothing : String} {line : α → Except Failure String} {items : List α}
  {output : String} {e : Failure}

theorem holdsHalf_padded (width : Nat) (s : String) : holdsHalf (padded width s) = holdsHalf s := by
  refine holdsHalf_append_right (fun c hc => ?_) s
  rw [String.toList_ofList] at hc
  rw [List.eq_of_mem_replicate hc]
  decide

theorem listing_eq_error : listing nothing line items = .error e ↔ items.mapM line = .error e := by
  unfold listing
  cases items with
  | nil => exact iff_of_false (fun h => by cases h) (fun h => by cases h)
  | cons item items => exact map_eq_error

/-- A list holds the halves that one of its lines holds. -/
theorem holdsHalf_listing (hnothing : IsAscii nothing)
    (hline : ∀ t ∈ items, ∀ a, line t = .ok a → ∃ s, a = s ++ "\n")
    (h : listing nothing line items = .ok output) :
    holdsHalf output = true ↔ ∃ t ∈ items, ∃ a, line t = .ok a ∧ holdsHalf a = true := by
  unfold listing at h
  split at h
  · rename_i hempty
    obtain rfl := List.isEmpty_iff.1 hempty
    obtain rfl := Except.ok.inj h
    simp [holdsHalf_append_right (m := "\n") (by decide), holdsHalf_of_ascii hnothing]
  · obtain ⟨row, hrow, rfl⟩ := map_eq_ok.1 h
    obtain ⟨hsteps, hrows⟩ := exists_mem_of_mapM hrow
    rw [holdsHalf_join (forall_mem_of_mapM hline hrow), List.any_eq_true]
    constructor
    · rintro ⟨a, ha, hhalf⟩
      obtain ⟨t, ht, hta⟩ := hrows a ha
      exact ⟨t, ht, a, hta, hhalf⟩
    · rintro ⟨t, ht, a, hta, hhalf⟩
      obtain ⟨b, hb, htb⟩ := hsteps t ht
      cases hta.symm.trans htb
      exact ⟨a, hb, hhalf⟩

end Lists

section Lines

variable {w : Workbook} {r : Resolution} {v : Variable} {f : Formula} {line : String} {e : Failure}

theorem variableLine_eq_error : variableLine w r v = .error e ↔
    ∃ x, r.values.lookup v.name = some x ∧ Unshowable w.config x e := by
  unfold variableLine
  cases r.values.lookup v.name with
  | none => exact iff_of_false (fun h => by cases h) (fun ⟨x, hx, _⟩ => by cases hx)
  | some x =>
    simp only [Option.some.injEq, exists_eq_left']
    rw [← format_eq_error]
    cases w.format x <;> simp [bind, Except.bind, pure, Except.pure]

theorem variableLine_eq_ok (h : variableLine w r v = .ok line) : ∃ shown,
    line = "  " ++ padded 20 v.name ++ " " ++ padded 8 v.kind.name.toLower ++ " " ++ shown ++ "\n" ∧
      ((∃ x, r.values.lookup v.name = some x ∧ w.format x = .ok shown) ∨
        r.values.lookup v.name = none ∧ shown = "ERROR: " ++ (r.errors.lookup v.name).getD "") := by
  unfold variableLine at h
  cases hlookup : r.values.lookup v.name with
  | none =>
    rw [hlookup] at h
    exact ⟨_, (Except.ok.inj h).symm, .inr ⟨rfl, rfl⟩⟩
  | some x =>
    rw [hlookup] at h
    obtain ⟨shown, hshown, hline⟩ := bind_eq_ok.1 h
    exact ⟨shown, (Except.ok.inj hline).symm, .inl ⟨x, rfl, hshown⟩⟩

/-- The line of a variable holds the halves of its name and, if it has no value, of its message. -/
theorem holdsHalf_variableLine (hkind : ∃ kind, v.kind = .known kind)
    (h : variableLine w r v = .ok line) : holdsHalf line = true ↔ holdsHalf v.name = true ∨
      r.values.lookup v.name = none ∧ holdsHalf ((r.errors.lookup v.name).getD "") = true := by
  obtain ⟨shown, rfl, hshown⟩ := variableLine_eq_ok h
  have hword : holdsHalf v.kind.name.toLower = false := by
    obtain ⟨kind, hkind⟩ := hkind
    rw [hkind]
    cases kind <;> decide +kernel
  rw [holdsHalf_append_right (by decide), holdsHalf_between (by decide) (by decide),
    holdsHalf_between (by decide) (by decide), holdsHalf_append_left (by decide), holdsHalf_padded,
    holdsHalf_padded, hword, Bool.or_false, Bool.or_eq_true]
  refine or_congr_right ?_
  obtain ⟨x, hx, hformat⟩ | ⟨hnone, rfl⟩ := hshown
  · simp [hx, holdsHalf_of_ascii (isAscii_of_format hformat)]
  · rw [holdsHalf_append_left (by decide)]
    simp [hnone]

theorem holdsHalf_of_mem_contextNames {name expression : String}
    (h : name ∈ contextNames expression) (hhalf : holdsHalf name = true) :
    holdsHalf expression = true := by
  obtain ⟨before, after, heq⟩ := infix_of_mem_contextNames h
  have hchars : expression.toList =
      (before ++ ['{', '{']) ++ '#' :: (name.toList ++ '}' :: ('}' :: after)) := by
    simp [← heq, placeholderChars]
  have hname : (codesOfChars name.toList).any isHalf = true := hhalf
  rw [holdsHalf, codes, hchars, any_isHalf_append_cons (c := '#') (by decide),
    any_isHalf_append_cons (c := '}') (by decide), hname, Bool.true_or, Bool.or_true]

/-- The line of a formula that asks for some names. -/
def formulaText (f : Formula) (names : List String) : String :=
  "  " ++ padded 20 f.name ++ " " ++ f.expression ++
    (if names.isEmpty then "" else "  needs: " ++ ", ".intercalate names) ++ "\n"

/-- Every formula has a line. The names in it are those that the first formula with its name asks
for. -/
theorem formulaLine_eq (h : w.WellFormed) (hf : f ∈ w.formulas) :
    ∃ g ∈ w.formulas, formulaLine w f = .ok (formulaText f (contextNames g.expression)) := by
  obtain ⟨g, hg, hfound, -⟩ := h.exists_formula? hf
  refine ⟨g, hg, ?_⟩
  rw [formulaLine, Workbook.contextNames, hfound]
  rfl

theorem holdsHalf_formulaText (f : Formula) (names : List String) :
    holdsHalf (formulaText f names) =
      (holdsHalf f.name || holdsHalf f.expression || names.any holdsHalf) := by
  have hfront : holdsHalf ("  " ++ padded 20 f.name ++ " " ++ f.expression) =
      (holdsHalf f.name || holdsHalf f.expression) := by
    rw [holdsHalf_between (by decide) (by decide), holdsHalf_append_left (by decide),
      holdsHalf_padded]
  rw [formulaText, holdsHalf_append_right (by decide)]
  cases names with
  | nil => rw [if_pos List.isEmpty_nil, String.append_empty, hfront, List.any_nil, Bool.or_false]
  | cons name names =>
    rw [if_neg (by simp), ← String.append_assoc, holdsHalf_between (by decide) (by decide), hfront,
      holdsHalf_intercalate (by decide) (by decide)]

end Lines

/-! ### Outputs -/

/-- The failures on the way to the output of a task: a number in it cannot be shown. -/
inductive Unshown (w : Workbook) : Task → Failure → Prop
  | entry {v : Variable} {x : Float} {e : Failure} (hv : v ∈ w.vars)
      (hx : w.resolution.values.lookup v.name = some x) (h : Unshowable w.config x e) :
      Unshown w (.resolve false) e
  | result {name : String} {items : List String} {json : Bool} {context : Context} {f : Formula}
      {x : Float} {e : Failure} (hitems : Job.context items = .ok context)
      (hf : w.formula? name = .ok f) (hx : FormulaBook.execute f.expression context
        w.resolution.values w.resolution.errors = .ok x) (h : Unshowable w.config x e) :
      Unshown w (.execute name items json) e

/-- The tasks whose output holds half of a pair: a name, a message or an expression in it does. -/
inductive Broken (w : Workbook) : Task → Prop
  | name {v : Variable} (hv : v ∈ w.vars) (h : holdsHalf v.name = true) : Broken w (.resolve false)
  | message {v : Variable} {message : String} (hv : v ∈ w.vars)
      (hmessage : w.resolution.errors.lookup v.name = some message)
      (h : holdsHalf message = true) : Broken w (.resolve false)
  | formula {f : Formula} (hf : f ∈ w.formulas)
      (h : holdsHalf f.name = true ∨ holdsHalf f.expression = true) : Broken w .formulas

/-- An error that is shown to a person. -/
def errorLine (message : String) : String := "Error: " ++ spellHalves message ++ "\n"

/-- The error of a formula as JSON. -/
def errorObject (name : String) (e : EvalError) : String :=
  (Json.object (("formula", .text (upper name)) :: errorFields e)).render ++ "\n"

/-- What a task prints in the place of its output: an item of the context is no name with a value,
the formula is unknown, or it has an error. -/
inductive Complains (w : Workbook) : Task → String → Prop
  | item {name : String} {items : List String} {json : Bool} {item : String}
      (h : items.find? (!·.toList.contains '=') = some item) :
      Complains w (.execute name items json)
        (errorLine ("Invalid --ctx format: " ++ quote item ++ ". Use name=value."))
  | unknown {name : String} {items : List String} {json : Bool} {context : Context}
      (hitems : Job.context items = .ok context)
      (h : ∀ f ∈ w.formulas, f.name ≠ normalizeName name) :
      Complains w (.execute name items json)
        (errorLine ("Unknown formula: " ++ quote (normalizeName name)))
  | formula {name : String} {items : List String} {json : Bool} {context : Context} {f : Formula}
      {e : EvalError} (hitems : Job.context items = .ok context) (hf : w.formula? name = .ok f)
      (h : FormulaBook.execute f.expression context w.resolution.values w.resolution.errors =
        .error e) :
      Complains w (.execute name items json)
        (if json then errorObject name e else errorLine e.message)

/-- How a task comes out: a number in its output cannot be shown, it complains, or it has an
output. -/
inductive Comes (w : Workbook) (task : Task) : Except Stop String → Prop
  | unshown {e : Failure} (hquiet : ∀ text, ¬ Complains w task text) (h : Unshown w task e) :
      Comes w task (.error (.escaped e))
  | failed {text : String} (hshown : ∀ e, ¬ Unshown w task e) (hwhole : ¬ Broken w task)
      (h : ∀ other, Complains w task other ↔ other = text) : Comes w task (.error (.failed text))
  | done {output : String} (hquiet : ∀ text, ¬ Complains w task text)
      (hshown : ∀ e, ¬ Unshown w task e) (h : holdsHalf output = true ↔ Broken w task) :
      Comes w task (.ok output)

section Outputs

variable {files : Files} {directory : Path} {w : Workbook} {task : Task} {name : String}
  {items : List String} {json : Bool} {stop : Stop} {e e' : Failure}

theorem Unshown.unique (h : Unshown w task e) (h' : Unshown w task e') : e = e' := by
  cases h with
  | entry _ _ h =>
    cases h' with
    | entry _ _ h' => exact h.unique h'
  | result _ _ _ h =>
    cases h' with
    | result _ _ _ h' => exact h.unique h'

/-! ### Resolutions -/

theorem listing_variableLine_eq_error {nothing : String} :
    listing nothing (variableLine w w.resolution) w.vars = .error e ↔
      Unshown w (.resolve false) e := by
  rw [listing_eq_error]
  constructor
  · intro h
    obtain ⟨before, v, after, hvars, -, hv⟩ := mapM_eq_error.1 h
    obtain ⟨x, hx, hunshowable⟩ := variableLine_eq_error.1 hv
    exact .entry (hvars ▸ List.mem_append_right before List.mem_cons_self) hx hunshowable
  · rintro ⟨hv, hx, h⟩
    refine mapM_eq_error_of_mem hv (variableLine_eq_error.2 ⟨_, hx, h⟩) fun u _ e' hu => ?_
    obtain ⟨y, -, hy⟩ := variableLine_eq_error.1 hu
    exact hy.unique h

theorem broken_resolve : Broken w (.resolve false) ↔ ∃ v ∈ w.vars, holdsHalf v.name = true ∨
    w.resolution.values.lookup v.name = none ∧
      holdsHalf ((w.resolution.errors.lookup v.name).getD "") = true := by
  constructor
  · rintro (⟨hv, h⟩ | ⟨hv, hmessage, h⟩)
    · exact ⟨_, hv, .inl h⟩
    · refine ⟨_, hv, .inr ⟨?_, by rw [hmessage]; exact h⟩⟩
      obtain ⟨x, -, hnone⟩ | ⟨message, hnone, -⟩ :=
        exists_lookup chainLimit (List.mem_map_of_mem (f := (·.name)) hv)
      · cases hnone.symm.trans hmessage
      · exact hnone
  · rintro ⟨v, hv, h | ⟨hnone, h⟩⟩
    · exact .name hv h
    · cases hmessage : w.resolution.errors.lookup v.name with
      | none => rw [hmessage] at h; cases h
      | some message => rw [hmessage] at h; exact .message hv hmessage h

theorem comes_resolve (hloads : Workbook.Loads files directory w) (now : String) :
    Comes w (.resolve false) (Task.output w now (.resolve false)) := by
  rw [Task.output]
  cases houtput : listing "No variables defined." (variableLine w w.resolution) w.vars with
  | error e => exact .unshown (fun text h => by cases h) (listing_variableLine_eq_error.1 houtput)
  | ok output =>
    have hshown : ∀ e, ¬ Unshown w (.resolve false) e := fun e h => by
      cases houtput.symm.trans (listing_variableLine_eq_error.2 h)
    have hhalf := holdsHalf_listing (by decide) (fun v _ line hline => by
      obtain ⟨shown, rfl, -⟩ := variableLine_eq_ok hline
      exact ⟨_, rfl⟩) houtput
    refine .done (fun text h => by cases h) hshown ?_
    rw [hhalf, broken_resolve]
    constructor
    · rintro ⟨v, hv, line, hline, h⟩
      exact ⟨v, hv, (holdsHalf_variableLine (hloads.kinds v hv) hline).1 h⟩
    · rintro ⟨v, hv, h⟩
      cases hline : variableLine w w.resolution v with
      | error e =>
        obtain ⟨x, hx, hunshowable⟩ := variableLine_eq_error.1 hline
        exact absurd (.entry hv hx hunshowable) (hshown e)
      | ok line =>
        exact ⟨v, hv, line, hline, (holdsHalf_variableLine (hloads.kinds v hv) hline).2 h⟩

/-! ### Lists of formulas -/

theorem comes_formulas (hloads : Workbook.Loads files directory w) (now : String) :
    Comes w .formulas (Task.output w now .formulas) := by
  have hmem (f : Formula) : f ∈ w.sortedFormulas ↔ f ∈ w.formulas := List.mem_mergeSort
  have hlines (f : Formula) (hf : f ∈ w.sortedFormulas) :=
    formulaLine_eq hloads.toWellFormed ((hmem f).1 hf)
  have hshown : ∀ e, ¬ Unshown w .formulas e := fun e h => by cases h
  rw [Task.output]
  cases houtput : listing "No formulas defined." (formulaLine w) w.sortedFormulas with
  | error e =>
    obtain ⟨before, f, after, hformulas, -, hf⟩ := mapM_eq_error.1 (listing_eq_error.1 houtput)
    obtain ⟨g, -, hline⟩ :=
      hlines f (hformulas ▸ List.mem_append_right before List.mem_cons_self)
    cases hf.symm.trans hline
  | ok output =>
    have hhalf := holdsHalf_listing (by decide) (fun f hf line hline => by
      obtain ⟨g, -, hline'⟩ := hlines f hf
      cases hline.symm.trans hline'
      exact ⟨_, rfl⟩) houtput
    refine .done (fun text h => by cases h) hshown (hhalf.trans ⟨?_, ?_⟩)
    · rintro ⟨f, hf, line, hline, h⟩
      obtain ⟨g, hg, hline'⟩ := hlines f hf
      cases hline.symm.trans hline'
      rw [holdsHalf_formulaText, Bool.or_eq_true, Bool.or_eq_true, List.any_eq_true] at h
      obtain h | ⟨name, hname, h⟩ := h
      · exact .formula ((hmem f).1 hf) h
      · exact .formula hg (.inr (holdsHalf_of_mem_contextNames hname h))
    · rintro (_ | _ | ⟨hf, h⟩)
      obtain ⟨g, -, hline⟩ := hlines _ ((hmem _).2 hf)
      refine ⟨_, (hmem _).2 hf, _, hline, ?_⟩
      rw [holdsHalf_formulaText, Bool.or_eq_true, Bool.or_eq_true]
      exact .inl h

/-! ### Executions -/

theorem executionStop_of_unshowable {c : Config} {x : Float} (h : Unshowable c x e) (name : String)
    (json : Bool) : Command.executionStop name json e = .escaped e := by
  cases h with
  | @setting cause => cases cause <;> rfl
  | precision => rfl

theorem executionOutput_of_format {x : Float} {shown : String} (name : String) (json : Bool)
    (h : w.format x = .ok shown) :
    ∃ output, executionOutput w name json (.ok x) = .ok output ∧ IsAscii output := by
  cases json with
  | true => exact ⟨_, rfl, (isAscii_of_isPlain (Json.isPlain_of_mem_render _)).append (by decide)⟩
  | false =>
    rw [executionOutput, if_neg Bool.false_ne_true, h]
    exact ⟨_, rfl, (isAscii_of_format h).append (by decide)⟩

theorem formula?_eq_error : w.formula? name = .error e ↔
    (∀ f ∈ w.formulas, f.name ≠ normalizeName name) ∧ e = .unknownFormula (normalizeName name) := by
  rw [Workbook.formula?]
  cases hfound : w.formulas.find? (·.name == normalizeName name) with
  | none =>
    have hall : ∀ f ∈ w.formulas, f.name ≠ normalizeName name := by simpa using hfound
    simp only [Except.error.injEq, eq_comm (a := e), and_iff_right hall]
  | some f =>
    refine iff_of_false (fun h => by cases h) fun h => ?_
    exact h.1 f (List.mem_of_find?_eq_some hfound) (by simpa using List.find?_some hfound)

theorem not_broken_execute : ¬ Broken w (.execute name items json) := fun h => by cases h

section Bound

variable {context : Context} {text : String}

theorem unshown_execute (hitems : Job.context items = .ok context) :
    Unshown w (.execute name items json) e ↔ ∃ f x, w.formula? name = .ok f ∧
      FormulaBook.execute f.expression context w.resolution.values w.resolution.errors = .ok x ∧
        w.format x = .error e := by
  constructor
  · rintro (_ | ⟨hitems', hf, hx, h⟩)
    cases hitems.symm.trans hitems'
    exact ⟨_, _, hf, hx, format_eq_error.2 h⟩
  · rintro ⟨f, x, hf, hx, h⟩
    exact .result hitems hf hx (format_eq_error.1 h)

theorem complains_execute (hitems : Job.context items = .ok context) :
    Complains w (.execute name items json) text ↔
      (∃ e, w.formula? name = .error e ∧ text = errorLine e.message) ∨
      ∃ f e, w.formula? name = .ok f ∧ FormulaBook.execute f.expression context
        w.resolution.values w.resolution.errors = .error e ∧
          text = if json then errorObject name e else errorLine e.message := by
  constructor
  · rintro (h | ⟨-, h⟩ | ⟨hitems', hf, h⟩)
    · cases hitems.symm.trans (context_eq_error.2 ⟨_, h, rfl⟩)
    · exact .inl ⟨_, formula?_eq_error.2 ⟨h, rfl⟩, rfl⟩
    · cases hitems.symm.trans hitems'
      exact .inr ⟨_, _, hf, h, rfl⟩
  · rintro (⟨e, h, rfl⟩ | ⟨f, e, hf, h, rfl⟩)
    · obtain ⟨hall, rfl⟩ := formula?_eq_error.1 h
      exact .unknown hitems hall
    · exact .formula hitems hf h

/-- The error of a formula is told, and nothing else. -/
theorem comes_execute_of_error {f : Formula} {e : EvalError}
    (hitems : Job.context items = .ok context) (hf : w.formula? name = .ok f)
    (hx : FormulaBook.execute f.expression context w.resolution.values w.resolution.errors =
      .error e) :
    Comes w (.execute name items json) (executionOutput w name json (.error (.evaluation e))) := by
  have hshown (e' : Failure) : ¬ Unshown w (.execute name items json) e' := by
    simp [unshown_execute hitems, hf, hx]
  have hprinted : executionOutput w name json (.error (.evaluation e)) =
      .error (.failed (if json then errorObject name e else errorLine e.message)) := by
    cases json <;> rfl
  rw [hprinted]
  refine .failed hshown not_broken_execute fun other => ?_
  simp [complains_execute hitems, hf, hx]

/-- A value that cannot be shown leaves the command. -/
theorem comes_execute_of_format_error {f : Formula} {x : Float}
    (hitems : Job.context items = .ok context) (hf : w.formula? name = .ok f)
    (hx : FormulaBook.execute f.expression context w.resolution.values w.resolution.errors = .ok x)
    (hformat : w.format x = .error e) :
    Comes w (.execute name items json) (executionOutput w name json (.error e)) := by
  have hquiet (text : String) : ¬ Complains w (.execute name items json) text := by
    simp [complains_execute hitems, hf, hx]
  rw [executionOutput, executionStop_of_unshowable (format_eq_error.1 hformat)]
  exact .unshown hquiet ((unshown_execute hitems).2 ⟨f, x, hf, hx, hformat⟩)

/-- A value that can be shown is printed. -/
theorem comes_execute_of_format {f : Formula} {x : Float} {shown : String}
    (hitems : Job.context items = .ok context) (hf : w.formula? name = .ok f)
    (hx : FormulaBook.execute f.expression context w.resolution.values w.resolution.errors = .ok x)
    (hformat : w.format x = .ok shown) :
    Comes w (.execute name items json) (executionOutput w name json (.ok x)) := by
  have hquiet (text : String) : ¬ Complains w (.execute name items json) text := by
    simp [complains_execute hitems, hf, hx]
  have hshown (e : Failure) : ¬ Unshown w (.execute name items json) e := by
    simp [unshown_execute hitems, hf, hx, hformat]
  obtain ⟨output, houtput, hascii⟩ := executionOutput_of_format name json hformat
  rw [houtput]
  exact .done hquiet hshown
    (iff_of_false (by simp [holdsHalf_of_ascii hascii]) not_broken_execute)

end Bound

/-- An item that is no name with a value is told, and nothing else. -/
theorem comes_execute_of_item (hitems : Job.context items = .error stop) :
    Comes w (.execute name items json) (.error stop) := by
  obtain ⟨item, hitem, rfl⟩ := context_eq_error.1 hitems
  refine .failed ?_ not_broken_execute fun other => ⟨?_, ?_⟩
  · rintro e (_ | ⟨hitems', -, -, -⟩)
    cases hitems.symm.trans hitems'
  · rintro (h | ⟨hitems', -⟩ | ⟨hitems', -, -⟩)
    · cases hitem.symm.trans h
      rfl
    · cases hitems.symm.trans hitems'
    · cases hitems.symm.trans hitems'
  · rintro rfl
    exact .item hitem

theorem comes_execute (w : Workbook) (now name : String) (items : List String) (json : Bool) :
    Comes w (.execute name items json) (Task.output w now (.execute name items json)) := by
  rw [Task.output]
  cases hitems : Job.context items with
  | error stop => exact comes_execute_of_item hitems
  | ok context =>
    dsimp only [Except.bind]
    rw [Workbook.execute]
    cases hf : w.formula? name with
    | error e =>
      obtain ⟨-, rfl⟩ := formula?_eq_error.1 hf
      have hshown (e' : Failure) : ¬ Unshown w (.execute name items json) e' := by
        simp [unshown_execute hitems, hf]
      refine .failed hshown not_broken_execute fun other => ?_
      simp [complains_execute hitems, hf, errorLine]
    | ok f =>
      dsimp only
      cases hx : FormulaBook.execute f.expression context w.resolution.values
          w.resolution.errors with
      | error e => exact comes_execute_of_error hitems hf hx
      | ok x =>
        dsimp only
        cases hformat : w.format x with
        | error e => exact comes_execute_of_format_error hitems hf hx hformat
        | ok shown => exact comes_execute_of_format hitems hf hx hformat

/-- How each task comes out. -/
theorem comes_output (hloads : Workbook.Loads files directory w) (now : String) (task : Task) :
    Comes w task (task.output w now) := by
  cases task with
  | resolve json =>
    cases json with
    | false => exact comes_resolve hloads now
    | true =>
      have hascii : IsAscii ((resolutionJson w.resolution).renderIndented 0 ++ "\n") :=
        (Json.isAscii_renderIndented _ 0).append (by decide)
      exact .done (fun text h => by cases h) (fun e h => by cases h)
        (iff_of_false (by simp [holdsHalf_of_ascii hascii]) (fun h => by cases h))
  | formulas => exact comes_formulas hloads now
  | execute name items json => exact comes_execute w now name items json

end Outputs

/-! ### Ways out of a command -/

/-- The workbook of a project loads, and its log can be attached. -/
structure Opens (ws : Workspace) (directory : Path) (w : Workbook) : Prop where
  load : Workbook.load ws.files directory = .ok w
  window : w.config.keepsEvents = true → ∃ size, w.config.window = .ok size

/-- The failures that leave the command of a task. -/
inductive Escapes (ws : Workspace) (directory : Path) (task : Task) : Failure → Prop
  | loading {e : Failure} (h : Workbook.load ws.files directory = .error e)
      (hsort : e.isReported = false) : Escapes ws directory task e
  | attaching {w : Workbook} {cause : SettingError}
      (hload : Workbook.load ws.files directory = .ok w) (hkeeps : w.config.keepsEvents = true)
      (h : w.config.window = .error cause) : Escapes ws directory task (.setting cause)
  | showing {w : Workbook} {e : Failure} (hw : Opens ws directory w) (h : Unshown w task e) :
      Escapes ws directory task e
  | sending {w : Workbook} (hw : Opens ws directory w) (hshown : ∀ e, ¬ Unshown w task e)
      (h : Broken w task) : Escapes ws directory task .halfInText

/-- What a command prints with status one. -/
inductive Reports (ws : Workspace) (directory : Path) (task : Task) : String → Prop
  | loading {e : Failure} (h : Workbook.load ws.files directory = .error e)
      (hsort : e.isReported = true) : Reports ws directory task (errorLine e.message)
  | failing {w : Workbook} {text : String} (hw : Opens ws directory w) (h : Complains w task text) :
      Reports ws directory task text

section Runs

variable {ws : Workspace} {text : String} {directory : Path} {words : List String} {task : Task}
  {w : Workbook} {e e' : Failure} {cause : SettingError}

theorem escapes_of_load_error (h : Workbook.load ws.files directory = .error e) :
    Escapes ws directory task e' ↔ e' = e ∧ e.isReported = false := by
  constructor
  · rintro (⟨h', hsort⟩ | ⟨hload, -, -⟩ | ⟨hw, -⟩ | ⟨hw, -, -⟩)
    · cases h.symm.trans h'
      exact ⟨rfl, hsort⟩
    · cases h.symm.trans hload
    · cases h.symm.trans hw.load
    · cases h.symm.trans hw.load
  · rintro ⟨rfl, hsort⟩
    exact .loading h hsort

theorem reports_of_load_error (h : Workbook.load ws.files directory = .error e) :
    Reports ws directory task text ↔ text = errorLine e.message ∧ e.isReported = true := by
  constructor
  · rintro (⟨h', hsort⟩ | ⟨hw, -⟩)
    · cases h.symm.trans h'
      exact ⟨rfl, hsort⟩
    · cases h.symm.trans hw.load
  · rintro ⟨rfl, hsort⟩
    exact .loading h hsort

theorem not_opens (hload : Workbook.load ws.files directory = .ok w)
    (hkeeps : w.config.keepsEvents = true) (h : w.config.window = .error cause) (w' : Workbook) :
    ¬ Opens ws directory w' := by
  intro hw
  cases hload.symm.trans hw.load
  obtain ⟨size, hsize⟩ := hw.window hkeeps
  cases h.symm.trans hsize

theorem escapes_of_window_error (hload : Workbook.load ws.files directory = .ok w)
    (hkeeps : w.config.keepsEvents = true) (h : w.config.window = .error cause) :
    Escapes ws directory task e' ↔ e' = .setting cause := by
  constructor
  · rintro (⟨h', -⟩ | ⟨hload', -, h'⟩ | ⟨hw, -⟩ | ⟨hw, -, -⟩)
    · cases hload.symm.trans h'
    · cases hload.symm.trans hload'
      cases h.symm.trans h'
      rfl
    · exact absurd hw (not_opens hload hkeeps h _)
    · exact absurd hw (not_opens hload hkeeps h _)
  · rintro rfl
    exact .attaching hload hkeeps h

theorem not_reports_of_window_error (hload : Workbook.load ws.files directory = .ok w)
    (hkeeps : w.config.keepsEvents = true) (h : w.config.window = .error cause) :
    ¬ Reports ws directory task text := by
  rintro (⟨h', -⟩ | ⟨hw, -⟩)
  · cases hload.symm.trans h'
  · exact not_opens hload hkeeps h _ hw

theorem escapes_of_opens (h : Opens ws directory w) : Escapes ws directory task e ↔
    Unshown w task e ∨ (∀ e, ¬ Unshown w task e) ∧ Broken w task ∧ e = .halfInText := by
  constructor
  · rintro (⟨h', -⟩ | ⟨hload, hkeeps, hwindow⟩ | ⟨hw, hunshown⟩ | ⟨hw, hshown, hbroken⟩)
    · cases h.load.symm.trans h'
    · exact absurd h (not_opens hload hkeeps hwindow w)
    · cases h.load.symm.trans hw.load
      exact .inl hunshown
    · cases h.load.symm.trans hw.load
      exact .inr ⟨hshown, hbroken, rfl⟩
  · rintro (hunshown | ⟨hshown, hbroken, rfl⟩)
    · exact .showing h hunshown
    · exact .sending h hshown hbroken

theorem reports_of_opens (h : Opens ws directory w) :
    Reports ws directory task text ↔ Complains w task text := by
  constructor
  · rintro (⟨h', -⟩ | ⟨hw, hcomplains⟩)
    · cases h.load.symm.trans h'
    · cases h.load.symm.trans hw.load
      exact hcomplains
  · exact .failing h

/-- An outcome that is accounted for: it is a failure that leaves the command, what the command
prints of another failure, or the output of the task. -/
structure Outcome.Fits (ws : Workspace) (directory : Path) (task : Task) (outcome : Outcome) :
    Prop where
  escaped : ∀ e, outcome = .escaped e ↔ Escapes ws directory task e
  reported : ∀ text, outcome = .printed 1 text ↔ Reports ws directory task text
  printed : (∀ e, ¬ Escapes ws directory task e) → (∀ text, ¬ Reports ws directory task text) →
    ∃ w output, Opens ws directory w ∧ task.output w ws.now = .ok output ∧
      outcome = .printed 0 output

theorem fits_escaped (h : ∀ e', Escapes ws directory task e' ↔ e' = e)
    (hquiet : ∀ text, ¬ Reports ws directory task text) :
    (Outcome.escaped e).Fits ws directory task where
  escaped e' := by rw [h, Outcome.escaped.injEq, eq_comm]
  reported text := iff_of_false (fun h => by cases h) (hquiet text)
  printed hnot := absurd ((h e).2 rfl) (hnot e)

theorem fits_reported (h : ∀ e, ¬ Escapes ws directory task e)
    (hreports : ∀ other, Reports ws directory task other ↔ other = text) :
    (Outcome.printed 1 text).Fits ws directory task where
  escaped e := iff_of_false (fun h => by cases h) (h e)
  reported other := by simp [hreports, eq_comm]
  printed _ hquiet := absurd ((hreports text).2 rfl) (hquiet text)

theorem fits_of_comes (hw : Opens ws directory w) (h : Comes w task (task.output w ws.now)) :
    (Outcome.ofOutput (task.output w ws.now)).Fits ws directory task := by
  generalize houtput : task.output w ws.now = r at h
  cases h with
  | @unshown e hquiet h =>
    refine fits_escaped (fun e' => ?_) fun text => by rw [reports_of_opens hw]; exact hquiet text
    rw [escapes_of_opens hw]
    constructor
    · rintro (h' | ⟨hshown, -⟩)
      · exact h'.unique h
      · exact absurd h (hshown _)
    · rintro rfl
      exact .inl h
  | @failed text hshown hwhole h =>
    refine fits_reported (fun e => ?_) fun other => by rw [reports_of_opens hw, h other]
    rw [escapes_of_opens hw]
    rintro (h' | ⟨-, hbroken, -⟩)
    · exact hshown e h'
    · exact hwhole hbroken
  | @done output hquiet hshown h =>
    have hreports : ∀ text, ¬ Reports ws directory task text := fun text => by
      rw [reports_of_opens hw]
      exact hquiet text
    have hescapes (e : Failure) :
        Escapes ws directory task e ↔ holdsHalf output = true ∧ e = .halfInText := by
      rw [escapes_of_opens hw, or_iff_right (hshown e), and_iff_right hshown, h]
    rw [Outcome.ofOutput]
    split
    · rename_i hhalf
      exact fits_escaped (fun e => by rw [hescapes, and_iff_right hhalf]) hreports
    · rename_i hhalf
      exact ⟨fun e => iff_of_false (fun h => by cases h) fun h => hhalf ((hescapes e).1 h).1,
        fun text => iff_of_false (fun h => by cases h) (hreports text),
        fun _ _ => ⟨w, output, hw, houtput, rfl⟩⟩

theorem fits_run (hcommand : Command.ofWords? words = some (task.command text))
    (hdirectory : ExceptT.run (Job.directory text) ws = (.ok directory, ws)) :
    (run words ws).1.Fits ws directory task := by
  rw [run_task hcommand hdirectory]
  cases hload : Workbook.load ws.files directory with
  | error e =>
    dsimp only [Job.shownIf]
    split
    · rename_i hreported
      refine fits_reported (fun e' => ?_) fun text => ?_
      · rw [escapes_of_load_error hload, hreported]
        simp
      · rw [reports_of_load_error hload, and_iff_left hreported]
        rfl
    · rename_i hreported
      refine fits_escaped (fun e' => ?_) fun text => ?_
      · rw [escapes_of_load_error hload, and_iff_left (Bool.eq_false_iff.2 hreported)]
      · rw [reports_of_load_error hload]
        exact fun h => hreported h.2
  | ok w =>
    dsimp only
    cases hsink : w.config.sink? directory with
    | error e =>
      obtain ⟨hkeeps, cause, hwindow, rfl⟩ := sink?_eq_error.1 hsink
      exact fits_escaped (fun e' => escapes_of_window_error hload hkeeps hwindow)
        fun text => not_reports_of_window_error hload hkeeps hwindow
    | ok sink =>
      have hw : Opens ws directory w := ⟨hload, fun hkeeps => by
        cases hwindow : w.config.window with
        | ok size => exact ⟨size, rfl⟩
        | error cause => cases hsink.symm.trans (sink?_eq_error.2 ⟨hkeeps, cause, hwindow, rfl⟩)⟩
      exact fits_of_comes hw (comes_output (Workbook.loads_of_load hload) ws.now task)

/-- **How a command on a project ends.** A task is asked of a project that is there, whatever its
files hold. A failure leaves the command in four ways and in no other: the workbook does not load
and its files are not reported to be at fault, the log is kept and the size of its window is no
number, a number that is to be shown cannot be shown with the precision that is set, or the output
holds half of a pair. The command ends with status one if and only if the files are reported to be
at fault, an item of the context has no equals sign, the formula is unknown, or it has an error,
and then it prints the error for a person or, of a formula, as JSON. In all other cases it prints
its output. In particular every variable has a value or a message to be shown. -/
theorem run_task_escapes (hcommand : Command.ofWords? words = some (task.command text))
    (hdirectory : ExceptT.run (Job.directory text) ws = (.ok directory, ws)) :
    let outcome := (run words ws).1
    (∀ e, outcome = .escaped e ↔ Escapes ws directory task e) ∧
      (∀ printed, outcome = .printed 1 printed ↔ Reports ws directory task printed) ∧
      ((∀ e, ¬ Escapes ws directory task e) → (∀ printed, ¬ Reports ws directory task printed) →
        ∃ w output, Opens ws directory w ∧ task.output w ws.now = .ok output ∧
          outcome = .printed 0 output) ∧
      ∀ w, Workbook.load ws.files directory = .ok w → ∀ v ∈ w.vars,
        (∃ x, w.resolution.values.lookup v.name = some x) ∨
          ∃ message, w.resolution.errors.lookup v.name = some message := by
  intro outcome
  have hfits : outcome.Fits ws directory task := fits_run hcommand hdirectory
  refine ⟨hfits.escaped, hfits.reported, hfits.printed, fun w _ v hv => ?_⟩
  exact (exists_lookup chainLimit (List.mem_map_of_mem (f := (·.name)) hv)).imp
    (fun ⟨x, hx, _⟩ => ⟨x, hx⟩) (fun ⟨message, _, hmessage⟩ => ⟨message, hmessage⟩)

end Runs

/-- A project with its two files. -/
def counter (definitions settings : String) : Workspace where
  files := ⟨[([""], .directory), (["", "counter"], .directory),
    (["", "counter", "varcalc.yaml"], .file (octets settings)),
    (["", "counter", "workbook.yaml"], .file (octets definitions))]⟩
  current := ["", "counter"]
  now := "0"

theorem run_task_escapes_counter :
    (run ["resolve", "."] (counter "variables: []" "logging_tail_bytes: abc")).1 =
      .escaped (.setting (.badNumeral "'abc'")) ∧
    (run ["formulas", "."] (counter "formulas: [" "")).1 = .escaped (.notYaml .malformed) := by
  have hdirectory (definitions settings : String) :
      ExceptT.run (Job.directory ".") (counter definitions settings) =
        (.ok ["", "counter"], counter definitions settings) :=
    run_directory_dot rfl
  constructor
  · have hloaded : (Workbook.load (counter "variables: []" "logging_tail_bytes: abc").files
        ["", "counter"]).toOption.any (fun w => w.config.keepsEvents &&
          w.config.window == .error (.badNumeral "'abc'")) = true := by
      decide +kernel
    obtain ⟨w, hw, hfacts⟩ := (Option.any_eq_true _ _).1 hloaded
    rw [Bool.and_eq_true] at hfacts
    have hcommand : Command.ofWords? ["resolve", "."] =
        some (Task.command "." (.resolve false)) := rfl
    exact ((run_task_escapes hcommand (hdirectory _ _)).1 _).2
      (.attaching (mem_toOption.1 hw) hfacts.1 (eq_of_beq hfacts.2))
  · have hloaded : (match Workbook.load (counter "formulas: [" "").files ["", "counter"] with
        | .error (.notYaml .malformed) => true
        | _ => false) = true := by
      decide +kernel
    split at hloaded
    · rename_i hload
      have hcommand : Command.ofWords? ["formulas", "."] = some (Task.command "." .formulas) := rfl
      exact ((run_task_escapes hcommand (hdirectory _ _)).1 _).2 (.loading hload rfl)
    · cases hloaded

end FormulaBook.CommandLine
