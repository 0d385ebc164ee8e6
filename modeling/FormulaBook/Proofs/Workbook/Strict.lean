import FormulaBook.Proofs.Lookup
import FormulaBook.Proofs.Outcome
import FormulaBook.Proofs.Text.Name
import FormulaBook.Proofs.Validation
import FormulaBook.Workbook.Basic

/-!
# Definitions of a strict workbook

A workbook whose settings are strict is refused unless all its definitions pass the checks. So each
of its variables has a name of its own, and each of its formulas has a name of its own under which
it is found, and an expression of the characters that are allowed.

* `Workbook.WellFormed`, `Workbook.wellFormed_of_load`: the definitions of a workbook that is
  loaded;
* `Workbook.Loads`, `Workbook.loads_of_load`: what a workbook is loaded from;
* `Workbook.WellFormed.exists_formula?`, `Workbook.WellFormed.formula?_name`: what is found under
  the name of a formula, and that it is the formula itself;
* `Workbook.WellFormed.isFormulaChar_expression`: the characters of its expression.
-/

namespace FormulaBook

open Text

namespace Workbook

variable {files : Files} {directory : Path} {w : Workbook} {f : Formula}

/-- The definitions of a workbook that is loaded: variables of a known kind, and variables and
formulas with stored names. If the settings are strict, all of them pass the checks. -/
structure WellFormed (w : Workbook) : Prop where
  kinds : ∀ v ∈ w.vars, ∃ kind, v.kind = .known kind
  storedVars : ∀ v ∈ w.vars, ∃ raw, v.name = normalizeName raw
  stored : ∀ f ∈ w.formulas, ∃ raw, f.name = normalizeName raw
  passes : w.config.isStrict = true → variableProblems w.vars = [] ∧ formulaProblems w.formulas = []

/-- What a workbook is loaded from: the settings of the project and well-formed definitions. -/
structure Loads (files : Files) (directory : Path) (w : Workbook) : Prop extends WellFormed w where
  config_eq : Config.load files directory = .ok w.config

theorem stored_of_readFormula {index : Nat} {entry : Value} (h : readFormula index entry = .ok f) :
    ∃ raw, f.name = normalizeName raw := by
  cases entry with
  | map entries =>
    obtain ⟨raw, -, hrest⟩ := bind_eq_ok.1 h
    obtain ⟨expression, -, hmade⟩ := bind_eq_ok.1 hrest
    obtain rfl := Except.ok.inj hmade
    exact ⟨raw, rfl⟩
  | _ => simp [readFormula] at h

theorem of_readVariable {index : Nat} {entry : Value} {v : Variable}
    (h : readVariable index entry = .ok v) :
    (∃ kind, v.kind = .known kind) ∧ ∃ raw, v.name = normalizeName raw := by
  cases entry with
  | map entries =>
    obtain ⟨kind, -, hrest⟩ := bind_eq_ok.1 h
    obtain ⟨raw, -, hrest⟩ := bind_eq_ok.1 hrest
    obtain ⟨expression, -, hmade⟩ := bind_eq_ok.1 hrest
    obtain rfl := Except.ok.inj hmade
    exact ⟨⟨kind, rfl⟩, raw, rfl⟩
  | _ => simp [readVariable] at h

/-- A stored name that passes the checks is one to its end. -/
theorem isNameChars_of_isName {name : String} (hstored : ∃ raw, name = normalizeName raw)
    (h : isName name = true) : isNameChars name.toList = true := by
  obtain ⟨raw, rfl⟩ := hstored
  exact isNameChars_normalizeName h

/-- What each entry of a block gives, all definitions of the block have. -/
theorem forall_of_readBlock {α : Type} {P : α → Prop} {sort : DefinitionSort}
    {read : Nat → Value → Except SpecError α} {block : Value} {definitions : List α}
    (hread : ∀ index entry a, read index entry = .ok a → P a)
    (h : readBlock sort read block = .ok definitions) : ∀ a ∈ definitions, P a := by
  cases block with
  | null =>
    cases h
    simp
  | list items => exact forall_mem_of_mapM (fun entry _ a ha => hread entry.2 entry.1 a ha) h
  | _ => simp [readBlock] at h

/-- A workbook that is loaded has well-formed definitions, and the settings that are given or, if
none are, those of the project. -/
theorem wellFormed_of_load {config : Option Config} (h : load files directory config = .ok w) :
    WellFormed w ∧ (config.elim (Config.load files directory) .ok) = .ok w.config := by
  unfold load at h
  cases hhas : files.has (path directory) with
  | false =>
    rw [hhas] at h
    cases h
  | true =>
    rw [hhas] at h
    obtain ⟨entries, -, h⟩ := bind_eq_ok.1 h
    -- The two cases differ in the settings only.
    cases config
    all_goals
      obtain ⟨settings, hsettings, h⟩ := bind_eq_ok.1 h
      obtain ⟨vars, hvars, h⟩ := bind_eq_ok.1 h
      obtain ⟨formulas, hformulas, h⟩ := bind_eq_ok.1 h
      dsimp only at h
      split at h
      · cases h
      · rename_i hproblems
        obtain rfl := Except.ok.inj h
        have hread := forall_of_readBlock (fun _ _ _ => of_readVariable) (mapError_eq_ok.1 hvars)
        refine ⟨⟨fun v hv => (hread v hv).1, fun v hv => (hread v hv).2,
          forall_of_readBlock (fun _ _ _ => stored_of_readFormula) (mapError_eq_ok.1 hformulas),
          fun hstrict => ?_⟩, hsettings⟩
        rw [hstrict, Bool.and_true, Bool.not_eq_true', Bool.not_eq_false, List.isEmpty_iff,
          List.append_eq_nil_iff] at hproblems
        exact hproblems

theorem loads_of_load (h : load files directory = .ok w) : Loads files directory w :=
  ⟨(wellFormed_of_load h).1, (wellFormed_of_load h).2⟩

namespace WellFormed

/-- Under the name of a formula one of that name is found. -/
theorem exists_formula? (h : WellFormed w) (hf : f ∈ w.formulas) :
    ∃ g ∈ w.formulas, w.formula? f.name = .ok g ∧ g.name = f.name := by
  have hname : normalizeName f.name = f.name := by
    obtain ⟨raw, hraw⟩ := h.stored f hf
    rw [hraw, normalizeName_normalizeName]
  obtain ⟨g, hg⟩ : ∃ g, w.formulas.find? (·.name == f.name) = some g :=
    Option.isSome_iff_exists.1 (List.find?_isSome.2 ⟨f, hf, beq_self_eq_true f.name⟩)
  refine ⟨g, List.mem_of_find?_eq_some hg, ?_, by simpa using List.find?_some hg⟩
  simp only [formula?, hname, hg]

variable (h : WellFormed w) (hstrict : w.config.isStrict = true)

include h hstrict

theorem isNameChars_name (hf : f ∈ w.formulas) : isNameChars f.name.toList = true := by
  have hnone := ((formulaProblemsAfter_eq_nil.1 (h.passes hstrict).2).1 f hf).1
  exact isNameChars_of_isName (h.stored f hf) (definitionProblem?_eq_none.1 hnone).1

/-- A formula is found under its name. -/
theorem formula?_name (hf : f ∈ w.formulas) : w.formula? f.name = .ok f := by
  have hnodup := (formulaProblemsAfter_eq_nil.1 (h.passes hstrict).2).2
  obtain ⟨g, hg, hfound, hname⟩ := h.exists_formula? hf
  rw [hfound, List.inj_on_of_nodup_map hnodup hg hf hname]

theorem isFormulaChar_expression (hf : f ∈ w.formulas) :
    ∀ c ∈ f.expression.toList, isFormulaChar c = true := by
  have hnone := ((formulaProblemsAfter_eq_nil.1 (h.passes hstrict).2).1 f hf).1
  exact allowed_of_definitionProblem?_eq_none hnone fun c hc => by
    simp [isFormulaChar, isDynamicChar, hc]

/-! ### Variables -/

variable {v : Variable}

theorem nodup_names : (w.vars.map (·.name)).Nodup :=
  (variableProblemsAfter_eq_nil.1 (h.passes hstrict).1).2

theorem isNameChars_variable (hv : v ∈ w.vars) : isNameChars v.name.toList = true := by
  have hnone := ((variableProblemsAfter_eq_nil.1 (h.passes hstrict).1).1 v hv).1
  exact isNameChars_of_isName (h.storedVars v hv) (definitionProblem?_eq_none.1 hnone).1

end WellFormed

end Workbook

end FormulaBook
