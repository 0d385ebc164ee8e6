import FormulaBook.Proofs.Text.Trimmed
import FormulaBook.Validation
import Mathlib.Data.List.Nodup

/-!
# Definitions that pass the checks

A list of definitions has no problems if each definition passes the checks by itself and no two have
one name. Otherwise there is one line for each definition that does not pass or whose name stands
before it, also where the earlier definition does not pass itself.

* `definitionProblem?_eq_none`: the definitions that pass the checks;
* `allowed_of_definitionProblem?_eq_none`: the characters of an expression that passes;
* `forall_cons_apart`: names that differ from each other and from those that are taken, one at a
  time;
* `Variable.problem?_of_parse`: the checks of what is read as a dynamic variable;
* `problemsAfter_eq_nil`, with `formulaProblemsAfter_eq_nil` and `variableProblemsAfter_eq_nil`: the
  lists that have no problems;
* `FailsAt`, `exists_places`: the places of a list that have a line.
-/

namespace FormulaBook

open Text

variable {allowed : Char → Bool} {taken : List String} {name expression : String}

theorem ite_some_eq_none {α : Type} {p : Prop} [Decidable p] {a : α} {o : Option α} :
    (if p then some a else o) = none ↔ ¬ p ∧ o = none := by
  split <;> simp [*]

/-- The definitions that pass the checks. That a name is there follows from its form. -/
theorem definitionProblem?_eq_none :
    definitionProblem? allowed taken name expression = none ↔
      isName name = true ∧ trimBy isBlank expression.toList ≠ [] ∧
        (∀ c ∈ trimBy isBlank expression.toList, allowed c = true) ∧ name ∉ taken := by
  have hthere : isName name = true → ¬ name.isEmpty = true := by
    rintro h hempty
    rw [String.isEmpty_iff.1 hempty] at h
    exact absurd h (by decide)
  simp only [definitionProblem?, ite_some_eq_none, Bool.not_eq_true', Bool.not_eq_false,
    List.isEmpty_iff, List.all_eq_true, List.contains_iff_mem, and_true]
  constructor
  · rintro ⟨-, hname, hexpression, hallowed, hfree⟩
    exact ⟨hname, hexpression, hallowed, hfree⟩
  · rintro ⟨hname, hexpression, hallowed, hfree⟩
    exact ⟨hthere hname, hname, hexpression, hallowed, hfree⟩

/-- The characters of an expression that passes the checks, if blanks are allowed. -/
theorem allowed_of_definitionProblem?_eq_none
    (h : definitionProblem? allowed taken name expression = none)
    (hblank : ∀ c, isBlank c = true → allowed c = true) :
    ∀ c ∈ expression.toList, allowed c = true := by
  obtain ⟨before, after, heq, hbefore, hafter⟩ := exists_trimBy isBlank expression.toList
  intro c hc
  rw [← heq, List.mem_append, List.mem_append] at hc
  obtain (hc | hc) | hc := hc
  · exact hblank c (hbefore c hc)
  · exact (definitionProblem?_eq_none.1 h).2.2.1 c hc
  · exact hblank c (hafter c hc)

/-- A variable that is read as a dynamic one has the characters of such a one, whatever states its
kind. -/
theorem Variable.problem?_of_parse {v : Variable} (h : v.kind.parse = .ok .dynamic) :
    v.problem? taken = definitionProblem? isDynamicChar taken v.name v.expression := by
  have hkind : ¬ (v.kind == .known .constant) = true := by
    intro hconstant
    rw [eq_of_beq hconstant] at h
    cases h
  rw [Variable.problem?, if_neg hkind]

/-! ### Lists -/

/-- Names differ from each other and from those that are taken if the first one is not taken and the
others differ also from it. -/
theorem forall_cons_apart {α : Type} (P : α → Prop) (key : α → String) {a : α} {rest : List α} :
    (P a ∧ key a ∉ taken) ∧ (∀ b ∈ rest, P b ∧ key b ∉ key a :: taken) ∧ (rest.map key).Nodup ↔
      (∀ b ∈ a :: rest, P b ∧ key b ∉ taken) ∧ ((a :: rest).map key).Nodup := by
  simp only [List.map_cons, List.nodup_cons, List.mem_cons, not_or,
    List.mem_map, not_exists, not_and]
  grind

section Lists

variable {α : Type} {what : DefinitionSort} {key : α → String}
  {check : List String → α → Option DefinitionProblem}

/-- A list has no lines if each definition passes the checks and no two have one name, where a
definition passes behind given names if it passes by itself and its name is not one of them. -/
theorem problemsAfter_eq_nil (hcheck : ∀ taken a,
      check taken a = none ↔ check [] a = none ∧ key a ∉ taken) {l : List α} :
    problemsAfter what key check taken l = [] ↔
      (∀ a ∈ l, check [] a = none ∧ key a ∉ taken) ∧ (l.map key).Nodup := by
  induction l generalizing taken with
  | nil => simp [problemsAfter]
  | cons a rest ih =>
    rw [problemsAfter, List.append_eq_nil_iff, List.map_eq_nil_iff, Option.toList_eq_nil_iff,
      hcheck, ih]
    exact forall_cons_apart (fun a => check [] a = none) key

end Lists

/-- A list of formulas passes the checks if each of them does and no two have one name. -/
theorem formulaProblemsAfter_eq_nil {formulas : List Formula} :
    formulaProblemsAfter taken formulas = [] ↔
      (∀ f ∈ formulas, f.problem? [] = none ∧ f.name ∉ taken) ∧
        (formulas.map (·.name)).Nodup :=
  problemsAfter_eq_nil fun taken f => by
    simp [Formula.problem?, definitionProblem?_eq_none, and_assoc]

/-- A list of variables passes the checks if each of them does and no two have one name. -/
theorem variableProblemsAfter_eq_nil {vars : List Variable} :
    variableProblemsAfter taken vars = [] ↔
      (∀ v ∈ vars, v.problem? [] = none ∧ v.name ∉ taken) ∧ (vars.map (·.name)).Nodup :=
  problemsAfter_eq_nil fun taken v => by
    simp [Variable.problem?, definitionProblem?_eq_none, and_assoc]

/-! ### Places -/

/-- Whether a name is taken is looked at last. -/
theorem Variable.problem?_eq_or (taken : List String) (v : Variable) : v.problem? taken =
    (v.problem? []).or (if v.name ∈ taken then some .nameTaken else none) := by
  unfold Variable.problem? definitionProblem?
  dsimp only
  repeat' split
  all_goals simp_all

/-- The definition at a place does not pass by itself, or its name is one of `taken` or stands
before it. -/
def FailsAt (taken : List String) (vars : List Variable) (i : Nat) : Prop :=
  ∃ v, vars[i]? = some v ∧ (v.problem? [] ≠ none ∨ v.name ∈ taken ∨
    ∃ j < i, ∃ u, vars[j]? = some u ∧ u.name = v.name)

/-- The line for a definition that does not pass, or whose name stands before it. -/
def failureLine (v : Variable) : String :=
  problemLine .variable v.name ((v.problem? []).getD .nameTaken)

section Places

variable {v : Variable} {vars : List Variable}

theorem failsAt_zero : FailsAt taken (v :: vars) 0 ↔ v.problem? [] ≠ none ∨ v.name ∈ taken := by
  simp [FailsAt]

theorem failsAt_succ {i : Nat} :
    FailsAt taken (v :: vars) (i + 1) ↔ FailsAt (v.name :: taken) vars i := by
  have hbefore (name : String) : (∃ j < i + 1, ∃ u, (v :: vars)[j]? = some u ∧ u.name = name) ↔
      v.name = name ∨ ∃ j < i, ∃ u, vars[j]? = some u ∧ u.name = name := by
    constructor
    · rintro ⟨j, hj, u, hu, hname⟩
      cases j with
      | zero =>
        cases hu
        exact .inl hname
      | succ j => exact .inr ⟨j, by omega, u, hu, hname⟩
    · rintro (hname | ⟨j, hj, u, hu, hname⟩)
      · exact ⟨0, by omega, v, rfl, hname⟩
      · exact ⟨j + 1, by omega, u, hu, hname⟩
  simp only [FailsAt, List.getElem?_cons_succ, hbefore, List.mem_cons]
  grind

/-- A definition that fails has one line, and no other has any. -/
theorem toList_problem? (taken : List String) (v : Variable) :
    (v.problem? taken).toList.map (problemLine .variable v.name) =
      if v.problem? [] ≠ none ∨ v.name ∈ taken then [failureLine v] else [] := by
  rw [v.problem?_eq_or, failureLine]
  cases v.problem? [] with
  | some p => simp
  | none => by_cases h : v.name ∈ taken <;> simp [h]

/-- The lines for a list belong to the places that fail, in their order. -/
theorem exists_places (taken : List String) (vars : List Variable) : ∃ places : List Nat,
    places.Pairwise (· < ·) ∧ (∀ i, i ∈ places ↔ FailsAt taken vars i) ∧
      List.Forall₂ (fun i line => ∃ v, vars[i]? = some v ∧ line = failureLine v) places
        (variableProblemsAfter taken vars) := by
  induction vars generalizing taken with
  | nil => exact ⟨[], .nil, by simp [FailsAt], .nil⟩
  | cons v vars ih =>
    obtain ⟨places, hsorted, hmem, hlines⟩ := ih (v.name :: taken)
    -- The places of the other definitions, counted from the first one.
    have hsorted' : (places.map (· + 1)).Pairwise (· < ·) :=
      List.pairwise_map.2 (hsorted.imp fun h => by omega)
    have hmem' : ∀ i, i + 1 ∈ places.map (· + 1) ↔ FailsAt taken (v :: vars) (i + 1) := by
      intro i
      rw [failsAt_succ, ← hmem]
      simp
    have hlines' : List.Forall₂ (fun i line => ∃ w, (v :: vars)[i]? = some w ∧ line = failureLine w)
        (places.map (· + 1)) (variableProblemsAfter (v.name :: taken) vars) :=
      List.forall₂_map_left_iff.2 hlines
    rw [variableProblemsAfter, problemsAfter, toList_problem?]
    by_cases hfirst : v.problem? [] ≠ none ∨ v.name ∈ taken
    · rw [if_pos hfirst]
      refine ⟨0 :: places.map (· + 1), List.pairwise_cons.2 ⟨by simp, hsorted'⟩, fun i => ?_,
        .cons ⟨v, rfl, rfl⟩ hlines'⟩
      cases i with
      | zero => simp [failsAt_zero, hfirst]
      | succ i => simp [← hmem']
    · rw [if_neg hfirst]
      refine ⟨places.map (· + 1), hsorted', fun i => ?_, hlines'⟩
      cases i with
      | zero => simp [failsAt_zero, hfirst]
      | succ i => exact hmem' i

end Places

end FormulaBook
