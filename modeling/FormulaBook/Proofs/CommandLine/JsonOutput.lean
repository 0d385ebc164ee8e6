import FormulaBook.Proofs.CommandLine.Escape

/-!
# Executions that answer in JSON

What is printed for a formula that is executed with the option for JSON. The value of the formula is
printed as an object, and so is an error of its expression. An item of the context without an equals
sign and an unknown formula are reported as they are without the option, and such a report is no
JSON.

* `resultObject`, `Answers`: what is printed, with the status;
* `context_eq_ok`, `exists_formula?_iff`: when an execution comes to the expression of a formula;
* `parse_errorLine`, `parse_resultObject`, `parse_errorObject`: what is printed, read as JSON;
* `Answers.parse_iff`, `Answers.of_parse`: when that is JSON, and what it says;
* `exists_answer`: an execution has an answer if its numbers can be shown;
* `run_execute_json`: the outcome of an execution.
-/

namespace FormulaBook.CommandLine

open Text

/-- The value of a formula as JSON. -/
def resultObject (name : String) (x : Float) : String :=
  (Json.object [("formula", .text (upper name)), ("result", .float x)]).render ++ "\n"

/-- What an execution prints that is to answer in JSON, with its status: the value of the formula, or
what stands in its place. -/
inductive Answers (w : Workbook) (name : String) (items : List String) : Nat → String → Prop
  | result {context : Context} {f : Formula} {x : Float}
      (hitems : Job.context items = .ok context) (hf : w.formula? name = .ok f)
      (hx : FormulaBook.execute f.expression context w.resolution.values w.resolution.errors =
        .ok x) : Answers w name items 0 (resultObject name x)
  | complaint {text : String} (h : Complains w (.execute name items true) text) :
      Answers w name items 1 text

/-! ### Before an expression is evaluated -/

section Before

variable {w : Workbook} {name : String} {items : List String}

/-- A context is read if each item has an equals sign. -/
theorem context_eq_ok :
    (∃ context, Job.context items = .ok context) ↔ ∀ item ∈ items, '=' ∈ item.toList := by
  have hfind : (∀ item ∈ items, '=' ∈ item.toList) ↔
      items.find? (!·.toList.contains '=') = none := by
    simp
  rw [hfind]
  cases hcontext : Job.context items with
  | ok context =>
    refine iff_of_true ⟨context, rfl⟩ ?_
    by_contra hitem
    obtain ⟨item, hitem⟩ := Option.ne_none_iff_exists'.1 hitem
    cases hcontext.symm.trans (context_eq_error.2 ⟨item, hitem, rfl⟩)
  | error stop =>
    obtain ⟨item, hitem, -⟩ := context_eq_error.1 hcontext
    exact iff_of_false (fun ⟨context, h⟩ => by cases h) (fun h => by cases h.symm.trans hitem)

/-- A formula is found under the names that are stored as its own. -/
theorem exists_formula?_iff :
    (∃ f, w.formula? name = .ok f) ↔ ∃ f ∈ w.formulas, f.name = normalizeName name := by
  cases hf : w.formula? name with
  | ok f =>
    refine iff_of_true ⟨f, rfl⟩ ?_
    by_contra hnone
    have hall : ∀ f ∈ w.formulas, f.name ≠ normalizeName name := fun g hg hname =>
      hnone ⟨g, hg, hname⟩
    cases hf.symm.trans (formula?_eq_error.2 ⟨hall, rfl⟩)
  | error e =>
    obtain ⟨hall, -⟩ := formula?_eq_error.1 hf
    exact iff_of_false (fun ⟨f, h⟩ => by cases h) fun ⟨f, hmem, hname⟩ => hall f hmem hname

end Before

/-! ### Read as JSON -/

section Read

variable {w : Workbook} {name printed : String} {items : List String} {status : Nat}

/-- A report for a person is no JSON. -/
theorem parse_errorLine (message : String) :
    Json.parse (errorLine message).toList = .error .malformed := by
  have hchars : (errorLine message).toList =
      "Error: ".toList ++ (spellHalves message ++ "\n").toList := by
    rw [errorLine, String.append_assoc, String.toList_append]
  rw [hchars]
  rfl

theorem parse_line {j : Json} (hlong : j.toValue.hasLongNumber = false)
    (hdepth : j.depth ≤ Json.nestingLimit) : Json.parse (j.render ++ "\n").toList = .ok j.reread := by
  rw [String.toList_append]
  exact Json.parse_render_append hlong hdepth (List.all_eq_true.1 rfl)

theorem parse_resultObject (name : String) (x : Float) :
    Json.parse (resultObject name x).toList =
      .ok (Json.object [("formula", .text (upper name)), ("result", .float x)]).reread :=
  parse_line rfl (show 2 ≤ Json.nestingLimit by decide)

theorem parse_errorObject (name : String) (e : EvalError) :
    Json.parse (errorObject name e).toList =
      .ok (Json.object (("formula", .text (upper name)) :: errorFields e)).reread :=
  parse_line rfl (show 2 ≤ Json.nestingLimit by decide)

/-- What is printed is JSON if each item of the context has an equals sign and the formula is known.
-/
theorem Answers.parse_iff (h : Answers w name items status printed) :
    (∃ j, Json.parse printed.toList = .ok j) ↔
      (∀ item ∈ items, '=' ∈ item.toList) ∧ ∃ f ∈ w.formulas, f.name = normalizeName name := by
  rw [← context_eq_ok, ← exists_formula?_iff]
  cases h with
  | result hitems hf _ =>
    exact iff_of_true ⟨_, parse_resultObject _ _⟩ ⟨⟨_, hitems⟩, _, hf⟩
  | complaint h =>
    cases h with
    | item hitem =>
      refine iff_of_false (fun ⟨j, hj⟩ => ?_) fun ⟨⟨context, hitems⟩, _⟩ => ?_
      · cases (parse_errorLine _).symm.trans hj
      · cases hitems.symm.trans (context_eq_error.2 ⟨_, hitem, rfl⟩)
    | unknown hitems hall =>
      refine iff_of_false (fun ⟨j, hj⟩ => ?_) fun ⟨_, f, hf⟩ => ?_
      · cases (parse_errorLine _).symm.trans hj
      · cases hf.symm.trans (formula?_eq_error.2 ⟨hall, rfl⟩)
    | formula hitems hf _ => exact iff_of_true ⟨_, parse_errorObject _ _⟩ ⟨⟨_, hitems⟩, _, hf⟩

/-- The JSON that is printed is one object about the formula, with a result if the status is zero
and with an error otherwise. -/
theorem Answers.of_parse (h : Answers w name items status printed) {j : Json}
    (hj : Json.parse printed.toList = .ok j) : (∃ fields, j = .object fields) ∧
      j.field? "formula" = some (.text (joined (upper name))) ∧
      ((j.field? "result").isSome = true ↔ status = 0) ∧
      ((j.field? "error").isSome = true ↔ status = 1) := by
  cases h with
  | result =>
    cases (parse_resultObject _ _).symm.trans hj
    refine ⟨⟨_, rfl⟩, ?_, ?_, ?_⟩
    all_goals rw [Json.field?_reread (by simp) (by decide)]
    · rfl
    · exact iff_of_true rfl rfl
    · exact iff_of_false (by simp) (by simp)
  | complaint h =>
    cases h with
    | item => cases (parse_errorLine _).symm.trans hj
    | unknown => cases (parse_errorLine _).symm.trans hj
    | formula =>
      cases (parse_errorObject _ _).symm.trans hj
      refine ⟨⟨_, rfl⟩, ?_, ?_, ?_⟩
      all_goals rw [Json.field?_reread (by simp [errorFields]) (by decide)]
      · rfl
      · exact iff_of_false (by simp [errorFields]) (by simp)
      · exact iff_of_true rfl rfl

end Read

/-! ### Outcomes -/

section Runs

variable {ws : Workspace} {text name : String} {items words : List String} {directory : Path}
  {w : Workbook}

/-- The output of an execution is the value of the formula. -/
theorem Answers.of_output {now output : String}
    (h : Task.output w now (.execute name items true) = .ok output) :
    Answers w name items 0 output := by
  obtain ⟨context, hitems, hprinted⟩ := bind_eq_ok.1 h
  rw [Workbook.execute] at hprinted
  cases hf : w.formula? name with
  | error e =>
    rw [hf] at hprinted
    cases hprinted
  | ok f =>
    rw [hf] at hprinted
    dsimp only at hprinted
    cases hx : FormulaBook.execute f.expression context w.resolution.values
        w.resolution.errors with
    | error e =>
      rw [hx] at hprinted
      cases hprinted
    | ok x =>
      rw [hx] at hprinted
      dsimp only at hprinted
      cases hformat : w.format x with
      | error e =>
        rw [hformat] at hprinted
        cases hprinted
      | ok shown =>
        rw [hformat] at hprinted
        cases hprinted
        exact .result hitems hf hx

/-- An execution has an answer if its numbers can be shown. -/
theorem exists_answer
    (hcommand : Command.ofWords? words = some (Task.command text (.execute name items true)))
    (hdirectory : ExceptT.run (Job.directory text) ws = (.ok directory, ws))
    (hw : Opens ws directory w)
    (hprecision : ∃ digits n, w.config.precision = .ok digits ∧ significantDigits digits = .ok n) :
    ∃ status printed, (run words ws).1 = .printed status printed ∧
      Answers w name items status printed := by
  obtain ⟨digits, n, hdigits, hn⟩ := hprecision
  have hfits := fits_run hcommand hdirectory
  have hshown : ∀ e, ¬ Unshown w (.execute name items true) e := by
    rintro e (_ | ⟨-, -, -, ⟨hsetting⟩ | ⟨hdigits', -, hcause⟩⟩)
    · cases hdigits.symm.trans hsetting
    · cases hdigits.symm.trans hdigits'
      cases hn.symm.trans hcause
  have hescapes : ∀ e, ¬ Escapes ws directory (.execute name items true) e := fun e h => by
    obtain hunshown | ⟨-, hbroken, -⟩ := (escapes_of_opens hw).1 h
    · exact hshown e hunshown
    · exact not_broken_execute hbroken
  by_cases hreports : ∃ printed, Reports ws directory (.execute name items true) printed
  · obtain ⟨printed, hreport⟩ := hreports
    exact ⟨1, printed, (hfits.reported printed).2 hreport,
      .complaint ((reports_of_opens hw).1 hreport)⟩
  · obtain ⟨w', output, hw', houtput, hrun⟩ := hfits.printed hescapes (not_exists.1 hreports)
    cases hw.load.symm.trans hw'.load
    exact ⟨0, output, hrun, .of_output houtput⟩

/-- **An execution that answers in JSON.** A formula is executed with the option for JSON, in a
project whose workbook loads, whose log can be attached and whose numbers can be shown. Then the
command ends with status zero and the value of the formula, or with status one and what stands in its
place. What it prints is JSON if and only if each item of the context has an equals sign and the
formula is known, and then it is one object about the formula, with a result or with an error as the
status says. An item without an equals sign and an unknown formula are reported in another form. -/
theorem run_execute_json
    (hcommand : Command.ofWords? words = some (Task.command text (.execute name items true)))
    (hdirectory : ExceptT.run (Job.directory text) ws = (.ok directory, ws))
    (hw : Opens ws directory w)
    (hprecision : ∃ digits n, w.config.precision = .ok digits ∧ significantDigits digits = .ok n) :
    ∃ status printed, (run words ws).1 = .printed status printed ∧
      Answers w name items status printed ∧
      ((∃ j, Json.parse printed.toList = .ok j) ↔
        (∀ item ∈ items, '=' ∈ item.toList) ∧ ∃ f ∈ w.formulas, f.name = normalizeName name) ∧
      ∀ j, Json.parse printed.toList = .ok j → (∃ fields, j = .object fields) ∧
        j.field? "formula" = some (.text (joined (upper name))) ∧
        ((j.field? "result").isSome = true ↔ status = 0) ∧
        ((j.field? "error").isSome = true ↔ status = 1) := by
  obtain ⟨status, printed, hprinted, hanswers⟩ :=
    exists_answer hcommand hdirectory hw hprecision
  exact ⟨status, printed, hprinted, hanswers, hanswers.parse_iff, fun j => hanswers.of_parse⟩

end Runs

/-- A project with one formula. -/
def single : Workspace := counter "formulas: [\x7bname: a, expression: 1\x7d]" ""

/-- The formula is executed with status zero and an object with its result. An unknown formula is
reported, and the report is no JSON. -/
theorem run_execute_json_single :
    (∃ printed j, (run ["execute", ".", "A", "--json"] single).1 = .printed 0 printed ∧
      Json.parse printed.toList = .ok j ∧ (j.field? "result").isSome = true) ∧
    (run ["execute", ".", "NOPE", "--json"] single).1 =
      .printed 1 "Error: Unknown formula: 'NOPE'\n" ∧
    ¬ ∃ j, Json.parse "Error: Unknown formula: 'NOPE'\n".toList = .ok j := by
  have hdirectory : ExceptT.run (Job.directory ".") single = (.ok ["", "counter"], single) :=
    run_directory_dot rfl
  have hloaded : (Workbook.load single.files ["", "counter"]).toOption.any (fun w =>
      w.config.window.toOption.isSome && w.formulas == [⟨"A", "1"⟩] &&
        (w.config.precision.toOption.bind fun digits =>
          (significantDigits digits).toOption).isSome &&
        (FormulaBook.execute "1" [] w.resolution.values w.resolution.errors).toOption.isSome) =
          true := by
    decide +kernel
  obtain ⟨w, hw, hfacts⟩ := (Option.any_eq_true _ _).1 hloaded
  simp only [Bool.and_eq_true, beq_iff_eq] at hfacts
  obtain ⟨⟨⟨hwindow, hformulas⟩, hdigits⟩, hvalue⟩ := hfacts
  have hopens : Opens single ["", "counter"] w :=
    ⟨mem_toOption.1 hw, fun _ => (Option.isSome_iff_exists.1 hwindow).imp fun _ => mem_toOption.1⟩
  have hprecision : ∃ digits n, w.config.precision = .ok digits ∧
      significantDigits digits = .ok n := by
    obtain ⟨n, hn⟩ := Option.isSome_iff_exists.1 hdigits
    obtain ⟨digits, hdigits, hn⟩ := Option.bind_eq_some_iff.1 hn
    exact ⟨digits, n, mem_toOption.1 hdigits, mem_toOption.1 hn⟩
  have hname : normalizeName "A" = "A" ∧ normalizeName "NOPE" = "NOPE" :=
    ⟨normalizeName_of_isNameChars (by decide), normalizeName_of_isNameChars (by decide)⟩
  obtain ⟨x, hx⟩ := Option.isSome_iff_exists.1 hvalue
  have hx : FormulaBook.execute "1" [] w.resolution.values w.resolution.errors = .ok x :=
    mem_toOption.1 hx
  have hfound : w.formula? "A" = .ok ⟨"A", "1"⟩ := by
    rw [Workbook.formula?, hformulas, hname.1]
    rfl
  have hmissing : w.formula? "NOPE" = .error (.unknownFormula "NOPE") := by
    rw [Workbook.formula?, hformulas, hname.2]
    rfl
  have hreport : errorLine (Failure.unknownFormula "NOPE").message =
      "Error: Unknown formula: 'NOPE'\n" := by
    decide +kernel
  have hcontext : Job.context [] = .ok [] := rfl
  refine ⟨?_, ?_, ?_⟩
  · have hcommand : Command.ofWords? ["execute", ".", "A", "--json"] =
        some (Task.command "." (.execute "A" [] true)) := rfl
    obtain ⟨status, printed, hprinted, hanswers, hjson, hreads⟩ :=
      run_execute_json hcommand hdirectory hopens hprecision
    obtain ⟨j, hj⟩ := hjson.2 ⟨by simp, by simp [hformulas, hname.1]⟩
    obtain rfl : status = 0 := by
      cases hanswers with
      | result => rfl
      | complaint h =>
        obtain ⟨e, he, -⟩ | ⟨f, e, hf, he, -⟩ := (complains_execute hcontext).1 h
        · cases hfound.symm.trans he
        · cases hfound.symm.trans hf
          cases hx.symm.trans he
    exact ⟨printed, j, hprinted, hj, (hreads j hj).2.2.1.2 rfl⟩
  · have hcommand : Command.ofWords? ["execute", ".", "NOPE", "--json"] =
        some (Task.command "." (.execute "NOPE" [] true)) := rfl
    obtain ⟨status, printed, hprinted, hanswers, -⟩ :=
      run_execute_json hcommand hdirectory hopens hprecision
    cases hanswers with
    | result _ hf => cases hmissing.symm.trans hf
    | complaint h =>
      obtain ⟨e, he, rfl⟩ | ⟨f, e, hf, -, -⟩ := (complains_execute hcontext).1 h
      · cases hmissing.symm.trans he
        exact hprinted.trans (congrArg (Outcome.printed 1) hreport)
      · cases hmissing.symm.trans hf
  · rintro ⟨j, hj⟩
    rw [← hreport] at hj
    cases (parse_errorLine _).symm.trans hj

end FormulaBook.CommandLine
