import FormulaBook.Proofs.Resolution.Totality
import FormulaBook.Proofs.Workbook.Strict

/-!
# What strict settings guarantee

The checks give one line for each definition of a list that fails by itself or whose name stands
before it, and a workbook with strict settings has no such line. So its variables have different
names, each of them a token by itself, and a resolution of the workbook comes to one entry for each
variable, to as many as the event at its end counts. Its formulas are found under their names.

* `Workbook.filter_resolutionEvents`: the event at the end of a resolution;
* `Workbook.guarantees_of_strict`: the lines of the checks, and what follows where there are none.
-/

namespace FormulaBook

open Text

namespace Workbook

/-- A resolution ends with the one event that counts its entries. -/
theorem filter_resolutionEvents (now : String) (w : Workbook) (r : Resolution) :
    (w.resolutionEvents now r).filter (·.type == .resolveCompleted) = [w.resolvedEvent now r] := by
  rw [resolutionEvents, List.filter_append,
    List.filter_eq_nil_iff.2 (List.forall_mem_map.2 fun _ _ => Bool.false_ne_true)]
  rfl

/-- **What the checks report and what strict settings guarantee.** The checks give one line for each
place of a list, in order, whose definition does not pass by itself or has the name of an earlier
one, whether that one passes or not. In a workbook that is loaded under strict settings, whether
these are its own or are given, the names of the variables are different, each of them is one token,
a resolution has one value or one error for each variable, the one event that completes it counts
both, and every formula is found under its name. -/
theorem guarantees_of_strict :
    (∀ vars : List Variable, ∃ places : List Nat, places.Pairwise (· < ·) ∧
      (∀ i, i ∈ places ↔ ∃ v, vars[i]? = some v ∧
        (v.problem? [] ≠ none ∨ ∃ j < i, ∃ u, vars[j]? = some u ∧ u.name = v.name)) ∧
      List.Forall₂ (fun i line => ∃ v, vars[i]? = some v ∧
        line = problemLine .variable v.name ((v.problem? []).getD .nameTaken))
        places (variableProblems vars)) ∧
    ∀ (files : Files) (directory : Path) (config : Option Config) (w : Workbook),
      load files directory config = .ok w → w.config.isStrict = true →
      (w.vars.map (·.name)).Nodup ∧
      (∀ v ∈ w.vars, tokenize v.name =
        .ok [{ kind := .identifier, text := v.name, position := some 0 }]) ∧
      (∀ now, ∃ r e, (w.resolve now).outcome = .ok r ∧
        (r.values.map (·.1) ++ r.errors.map (·.1)).Perm (w.vars.map (·.name)) ∧
        (w.resolve now).events.filter (·.type == .resolveCompleted) = [e] ∧
        e.context.lookup "variable_count" = some (.int (r.values.length + r.errors.length)) ∧
        e.context.lookup "error_count" = some (.int r.errors.length)) ∧
      ∀ f ∈ w.formulas, w.formula? f.name = .ok f := by
  constructor
  · intro vars
    obtain ⟨places, hsorted, hmem, hlines⟩ := exists_places [] vars
    refine ⟨places, hsorted, fun i => (hmem i).trans ?_, hlines⟩
    simp [FailsAt]
  · intro files directory config w hload hstrict
    obtain ⟨hformed, -⟩ := wellFormed_of_load hload
    have hnodup := hformed.nodup_names hstrict
    have hlisted : w.resolution.entries.map (·.1) = w.vars.map (·.name) :=
      (keys_entries chainLimit w.vars).trans (eraseDups_of_nodup hnodup)
    have hkeys := perm_keys w.resolution
    rw [hlisted] at hkeys
    have hcount : w.vars.length = w.resolution.values.length + w.resolution.errors.length := by
      simpa using hkeys.length_eq.symm
    refine ⟨hnodup, fun v hv => tokenize_of_isNameChars (hformed.isNameChars_variable hstrict hv),
      fun now => ⟨_, _, rfl, hkeys, filter_resolutionEvents now w w.resolution, ?_, rfl⟩,
      fun f hf => hformed.formula?_name hstrict hf⟩
    show some (Json.int w.vars.length) = _
    rw [hcount, Int.natCast_add]

/-- A project with a constant, a variable that refers to a name that is missing, and a formula. -/
def ledger : Files :=
  ⟨[([""], .directory), (["", "ledger"], .directory),
    (["", "ledger", "workbook.yaml"], .file (octets ("variables:\n" ++
      "- \x7bname: a, expression: 2\x7d\n" ++ "- \x7bname: b, kind: dynamic, expression: C\x7d\n" ++
      "formulas:\n" ++ "- \x7bname: t, expression: B\x7d\n")))]⟩

/-- One variable has a value and the other one an error, which are counted as two and as one. -/
theorem guarantees_of_strict_ledger : ∃ w, load ledger ["", "ledger"] = .ok w ∧
    w.config.isStrict = true ∧ w.vars.map (·.name) = ["A", "B"] ∧
    w.formula? "T" = .ok ⟨"T", "B"⟩ ∧
    ∃ e, (w.resolve "0").events.filter (·.type == .resolveCompleted) = [e] ∧
      e.context.lookup "variable_count" = some (.int 2) ∧
      e.context.lookup "error_count" = some (.int 1) := by
  have hloaded : (load ledger ["", "ledger"]).toOption.any (fun w => w.config.isStrict &&
      w.vars.map (·.name) == ["A", "B"] && w.formulas.contains ⟨"T", "B"⟩ &&
      w.resolution.values.length == 1 && w.resolution.errors.length == 1) = true := by
    decide +kernel
  obtain ⟨w, hw, hfacts⟩ := (Option.any_eq_true _ _).1 hloaded
  have hload : load ledger ["", "ledger"] = .ok w := mem_toOption.1 hw
  simp only [Bool.and_eq_true, beq_iff_eq] at hfacts
  obtain ⟨⟨⟨⟨hstrict, hnames⟩, hformula⟩, hvalues⟩, herrors⟩ := hfacts
  obtain ⟨-, -, hevents, hformulas⟩ :=
    guarantees_of_strict.2 ledger ["", "ledger"] none w hload hstrict
  obtain ⟨r, e, houtcome, -, hevent, hcount, hfailed⟩ := hevents "0"
  obtain rfl : w.resolution = r := Except.ok.inj houtcome
  have htwo : ((w.resolution.values.length : Int) + w.resolution.errors.length) = 2 := by omega
  rw [htwo] at hcount
  rw [herrors] at hfailed
  have hfound := hformulas ⟨"T", "B"⟩ (List.contains_iff_mem.1 hformula)
  exact ⟨w, hload, hstrict, hnames, hfound, e, hevent, hcount, hfailed⟩

end Workbook

end FormulaBook
