import FormulaBook.Proofs.Workbook.Strict
import FormulaBook.Session.Basic

/-!
# Listed formulas

A row of a list of formulas shows a formula and the names that it asks for. The names are looked up
under the name of the formula, so they are those of the first formula of that name, which is also the
one that is executed under it. Under strict settings that is the formula of the row. Lenient settings
admit formulas of one name, and then a row may show an expression beside names that it does not ask
for.

* `Workbook.listedNames`, `Session.formulaRows_eq`: the names beside a formula, and the rows;
* `Workbook.WellFormed.exists_listedNames`: whose names these are;
* `Session.formulaRows_of_load`: when the rows show what their expressions ask for.
-/

namespace FormulaBook

namespace Workbook

/-- The names beside a formula: those that are found under its name. -/
def listedNames (w : Workbook) (f : Formula) : List String :=
  (w.contextNames f.name).toOption.getD []

/-- The names beside a formula are those of the formula that is found under its name. -/
theorem WellFormed.exists_listedNames {w : Workbook} {f : Formula} (h : WellFormed w)
    (hf : f ∈ w.formulas) : ∃ g ∈ w.formulas, w.formula? f.name = .ok g ∧ g.name = f.name ∧
      w.contextNames f.name = .ok (w.listedNames f) ∧
        w.listedNames f = FormulaBook.contextNames g.expression := by
  obtain ⟨g, hg, hfound, hname⟩ := h.exists_formula? hf
  have hnames : w.contextNames f.name = .ok (FormulaBook.contextNames g.expression) := by
    rw [contextNames, hfound]
    rfl
  have hlisted : w.listedNames f = FormulaBook.contextNames g.expression := by
    rw [listedNames, hnames]
    rfl
  exact ⟨g, hg, hfound, hname, hnames.trans (congrArg Except.ok hlisted.symm), hlisted⟩

end Workbook

namespace Session

variable {s : Session} {files : Files} {directory : Path} {config : Option Config}

/-- There is a row for each formula, in the order of their names. -/
theorem formulaRows_eq (h : s.workbook.WellFormed) : s.formulaRows =
    .ok (s.workbook.sortedFormulas.map fun f => ⟨f, s.workbook.listedNames f⟩) := by
  rw [formulaRows, ← List.map_id s.workbook.sortedFormulas, mapM_map_eq_ok, List.map_id]
  intro f hf
  obtain ⟨-, -, -, -, hnames, -⟩ := h.exists_listedNames (List.mem_mergeSort.1 hf)
  rw [id, hnames]
  rfl

/-- **The names beside a listed formula.** A workbook that is loaded, under whatever settings, has a
list of its formulas in the order of their names. Beside each of them stand the names that the
formula asks for which is executed under its name. All rows show the names that their own expressions
ask for if and only if formulas of one name ask for the same names, as it is under strict settings,
where no two formulas have one name. -/
theorem formulaRows_of_load (hload : Workbook.load files directory config = .ok s.workbook) :
    ∃ rows, s.formulaRows = .ok rows ∧ rows.map (·.formula) = s.workbook.sortedFormulas ∧
      (∀ row ∈ rows, ∃ f ∈ s.workbook.formulas, s.workbook.formula? row.formula.name = .ok f ∧
        f.name = row.formula.name ∧ row.contextNames = contextNames f.expression) ∧
      ((∀ row ∈ rows, row.contextNames = contextNames row.formula.expression) ↔
        ∀ f ∈ s.workbook.formulas, ∀ g ∈ s.workbook.formulas, f.name = g.name →
          contextNames f.expression = contextNames g.expression) ∧
      (s.workbook.config.isStrict = true →
        ∀ row ∈ rows, row.contextNames = contextNames row.formula.expression) := by
  obtain ⟨hformed, -⟩ := Workbook.wellFormed_of_load hload
  have hmem (f : Formula) : f ∈ s.workbook.sortedFormulas ↔ f ∈ s.workbook.formulas :=
    List.mem_mergeSort
  refine ⟨_, formulaRows_eq hformed, ?_, ?_, ⟨fun hrows f hf g hg hname => ?_, fun hsame => ?_⟩,
    fun hstrict => ?_⟩
  · rw [List.map_map]
    exact List.map_id _
  · refine List.forall_mem_map.2 fun f hf => ?_
    obtain ⟨g, hg, hfound, hname, -, hnames⟩ := hformed.exists_listedNames ((hmem f).1 hf)
    exact ⟨g, hg, hfound, hname, hnames⟩
  · rw [List.forall_mem_map] at hrows
    have hlisted : s.workbook.listedNames f = s.workbook.listedNames g := by
      rw [Workbook.listedNames, hname, Workbook.listedNames]
    rw [← hrows f ((hmem f).2 hf), ← hrows g ((hmem g).2 hg)]
    exact hlisted
  · refine List.forall_mem_map.2 fun f hf => ?_
    obtain ⟨g, hg, -, hname, -, hnames⟩ := hformed.exists_listedNames ((hmem f).1 hf)
    exact hnames.trans (hsame g hg f ((hmem f).1 hf) hname)
  · refine List.forall_mem_map.2 fun f hf => ?_
    obtain ⟨g, -, hfound, -, -, hnames⟩ := hformed.exists_listedNames ((hmem f).1 hf)
    obtain rfl : g = f :=
      Except.ok.inj (hfound.symm.trans (hformed.formula?_name hstrict ((hmem f).1 hf)))
    exact hnames

/-- A project with lenient settings and two formulas of one name. -/
def twice : Files :=
  ⟨[([""], .directory), (["", "twice"], .directory),
    (["", "twice", "varcalc.yaml"], .file (Text.octets "strict_definitions: false\n")),
    (["", "twice", "workbook.yaml"], .file (Text.octets ("formulas:\n" ++
      "- \x7bname: a, expression: \"\x7b\x7b#x\x7d\x7d\"\x7d\n" ++
      "- \x7bname: a, expression: \"\x7b\x7b#y\x7d\x7d\"\x7d\n")))]⟩

/-- Beside the second formula stands the name that the first one asks for. -/
theorem formulaRows_of_load_twice : ∃ w, Workbook.load twice ["", "twice"] = .ok w ∧
    ∃ rows, formulaRows { directory := ["", "twice"], workbook := w } = .ok rows ∧
      ∃ row ∈ rows, row.formula = ⟨"A", "\x7b\x7b#y\x7d\x7d"⟩ ∧ row.contextNames = ["x"] ∧
        contextNames row.formula.expression = ["y"] := by
  have hloaded : (Workbook.load twice ["", "twice"]).toOption.any (fun w =>
      w.formulas == [⟨"A", "\x7b\x7b#x\x7d\x7d"⟩, ⟨"A", "\x7b\x7b#y\x7d\x7d"⟩]) = true := by
    decide +kernel
  obtain ⟨w, hw, hformulas⟩ := (Option.any_eq_true _ _).1 hloaded
  have hload : Workbook.load twice ["", "twice"] = .ok w := mem_toOption.1 hw
  obtain ⟨rows, hrows, hlisted, hnames, -⟩ :=
    formulaRows_of_load (s := { directory := ["", "twice"], workbook := w }) hload
  refine ⟨w, hload, rows, hrows, ?_⟩
  have hmem : (⟨"A", "\x7b\x7b#y\x7d\x7d"⟩ : Formula) ∈ rows.map (·.formula) := by
    rw [hlisted, Workbook.sortedFormulas, List.mem_mergeSort, eq_of_beq hformulas]
    simp
  obtain ⟨row, hrow, hformula⟩ := List.mem_map.1 hmem
  obtain ⟨f, -, hfound, -, hcontext⟩ := hnames row hrow
  have hfirst : w.formula? row.formula.name = .ok ⟨"A", "\x7b\x7b#x\x7d\x7d"⟩ := by
    have hname : normalizeName "A" = "A" := normalizeName_of_isNameChars (by decide)
    rw [hformula, Workbook.formula?, eq_of_beq hformulas, hname]
    rfl
  cases hfound.symm.trans hfirst
  refine ⟨row, hrow, hformula, hcontext.trans (by decide +kernel), ?_⟩
  rw [hformula]
  decide +kernel

end Session

end FormulaBook
