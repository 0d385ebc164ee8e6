import FormulaBook.Formula
import FormulaBook.Proofs.Arithmetic.Errors
import FormulaBook.Proofs.Resolution.Locality

/-!
# Formulas and dynamic variables

An expression without placeholders can be executed as a formula, on the values and errors that a
list has been resolved to, or it can be added to the list as a dynamic variable. Both give the same
value, and they fail at the same place: a formula names the variable that has an error, while the
new variable takes over the error itself.

* `Formula.asVariable`: a formula as a dynamic variable;
* `EvalError.messageAs`: the message that a variable has where a formula has an error;
* `inForce_append_asVariable`, `plainSearch_append_asVariable`: what a new definition changes, and
  what it does not;
* `bindContext_of_plain`, `bindName_eq`: how a formula binds its tokens;
* `execute_eq_plainSearch`: both ways come to the same;
* `execute_iff_lookup_asVariable`: the entries of the list with the new variable.
-/

namespace FormulaBook

open Relation

/-- The dynamic variable with the name and the expression of a formula. -/
def Formula.asVariable (f : Formula) : Variable := ⟨f.name, .known .dynamic, f.expression⟩

/-- The message of a dynamic variable whose expression fails with an error when it is executed as a
formula. The error of a variable is taken over, and a missing variable is missed by `user`. -/
def EvalError.messageAs (user : String) : EvalError → String
  | .variableHasError _ underlying => underlying
  | .unknownVariable name _ =>
    "Unknown variable \"" ++ name ++ "\" in expression of \"" ++ user ++ "\"."
  | e => e.message

/-- An error of the expression itself has one message in both. -/
theorem mapError_messageAs {α : Type} {r : Except EvalError α} (h : ∀ e, r = .error e → e.OfText)
    (user : String) : r.mapError (·.messageAs user) = r.mapError EvalError.message := by
  cases r with
  | ok a => rfl
  | error e =>
    have htext := h e rfl
    cases e <;> first | rfl | exact htext.elim

/-! ### A new definition -/

section Added

variable {vars : List Variable} {name target : String}

theorem inForce_append_asVariable (vars : List Variable) (f : Formula) (name : String) :
    inForce (vars ++ [f.asVariable]) name =
      if name = f.name then some f.asVariable else inForce vars name := by
  by_cases h : name = f.name
  · simp [inForce, Formula.asVariable, h]
  · simp [inForce, Formula.asVariable, h, Ne.symm h]

/-- A name that no definition lists is reached from no other name. -/
theorem not_reflTransGen_of_not_mem (h : ∀ v ∈ vars, target ∉ v.dependencies)
    (hne : name ≠ target) : ¬ ReflTransGen (Refers vars) name target := by
  intro hreach
  obtain heq | ⟨other, -, hlast⟩ := hreach.cases_tail
  · exact hne heq.symm
  · have hlisted := hlast.dependsOn
    rw [DependsOn, dependenciesOf] at hlisted
    split at hlisted
    · rename_i v hdef
      exact h v (mem_of_inForce hdef) hlisted
    · cases hlisted

end Added

/-! ### Bound tokens -/

theorem bindContext_of_plain (context : Context) {tokens : List Token}
    (h : ∀ t ∈ tokens, t.kind ≠ .placeholder) : bindContext context tokens = .ok tokens :=
  mapM_eq_self fun t ht => if_neg (by simpa using h t ht)

theorem bindVariables_of_plain (values : List (String × Float)) (errors : List (String × String))
    {tokens : List Token} (h : ∀ t ∈ tokens, t.kind ≠ .identifier) :
    bindVariables values errors tokens = .ok tokens :=
  mapM_eq_self fun t ht => if_neg (by simpa using h t ht)

theorem ranked_of_bindVariables {values : List (String × Float)} {errors : List (String × String)}
    {tokens row : List Token} (htokens : ∀ t ∈ tokens, t.Ranked)
    (h : bindVariables values errors tokens = .ok row) : ∀ t ∈ row, t.Ranked := by
  refine forall_mem_of_mapM (fun t ht r hr => ?_) h
  split at hr
  · unfold bindName at hr
    split at hr <;> cases hr
    exact Token.ranked_of_kind_ne (by simp [Token.ofValue])
  · cases hr
    exact htokens t ht

/-! ### Both ways of evaluation -/

section Dynamic

variable {vars : List Variable} {f : Formula}

/-- A new variable that no definition lists changes no search for another name, not even a search
that begins at the new variable. -/
theorem plainSearch_append_asVariable
    (hlisted : ∀ w ∈ vars ++ [f.asVariable], f.name ∉ w.dependencies) {outer : List String}
    (houter : ∀ k ∈ outer, k = f.name) {name : String} (hne : name ≠ f.name) :
    plainSearch (vars ++ [f.asVariable]) outer name = plainSearch vars [] name := by
  have havoid : ¬ ReflTransGen (Refers (vars ++ [f.asVariable])) name f.name :=
    not_reflTransGen_of_not_mem hlisted hne
  have hagree : ∀ other, ReflTransGen (Refers (vars ++ [f.asVariable])) name other →
      inForce (vars ++ [f.asVariable]) other = inForce vars other := by
    intro other hreach
    rw [inForce_append_asVariable, if_neg]
    rintro rfl
    exact havoid hreach
  rw [← List.append_nil outer]
  exact plainSearch_congr hagree fun k hk hreach => havoid (houter k hk ▸ hreach)

/-- The new variable is computed from its expression, with its own name on the path. -/
theorem plainSearch_asVariable (vars : List Variable) (f : Formula) :
    plainSearch (vars ++ [f.asVariable]) [] f.name = (tokenize f.expression).bind fun tokens =>
      (tokens.mapM (replaceName (vars ++ [f.asVariable]) f.name
        (plainSearch (vars ++ [f.asVariable]) [f.name]))).bind evaluateTokens := by
  have hdef : inForce (vars ++ [f.asVariable]) f.name = some f.asVariable := by
    rw [inForce_append_asVariable, if_pos rfl]
  rw [plainSearch_of_parse List.not_mem_nil hdef rfl]
  rfl

section Recorded

variable {r : Resolution} (hr : r.entries =
  (Definitions.ofList vars).names.map fun name => (name, plainSearch vars [] name))
include hr

/-- A name is bound to its value, if it has one, and its error or its absence is reported. -/
theorem bindName_eq (t : Token) : bindName r.values r.errors t =
    if (inForce vars t.text).isNone then .error (.unknownVariable t.text none)
    else ((plainSearch vars [] t.text).mapError fun e => .variableHasError t.text e.message).map
      (Token.ofValue · t.position) := by
  rw [bindName, lookup_values hr, lookup_errors hr]
  cases hdef : inForce vars t.text with
  | none =>
    have hname : t.text ∉ (Definitions.ofList vars).names := by
      rw [mem_names_iff_inForce, hdef]
      simp
    simp [hname]
  | some v =>
    have hname : t.text ∈ (Definitions.ofList vars).names := by
      rw [mem_names_iff_inForce, hdef]
      rfl
    simp only [hname, if_true]
    cases plainSearch vars [] t.text <;> rfl

/-- A token is bound in a formula as it is replaced in the new variable, up to the words of the
error. -/
theorem bound_eq_replaceName (hlisted : ∀ w ∈ vars ++ [f.asVariable], f.name ∉ w.dependencies)
    {t : Token} (hplain : t.kind ≠ .placeholder) (hne : t.kind = .identifier → t.text ≠ f.name) :
    (if t.kind == .identifier then bindName r.values r.errors t
      else .ok t : Except EvalError Token).mapError (·.messageAs f.name) =
      (replaceName (vars ++ [f.asVariable]) f.name (plainSearch (vars ++ [f.asVariable]) [f.name])
        t).mapError EvalError.message := by
  unfold replaceName
  cases hk : t.kind with
  | placeholder => exact absurd hk hplain
  | number | operator | lparen | rparen => rfl
  | identifier =>
    have hname := hne hk
    simp only [beq_self_eq_true, if_true]
    rw [bindName_eq hr, inForce_append_asVariable, if_neg hname,
      plainSearch_append_asVariable hlisted (fun k => List.mem_singleton.1) hname]
    cases inForce vars t.text with
    | none => rfl
    | some w => cases plainSearch vars [] t.text <;> rfl

/-- An expression comes to the same in a formula and in a new dynamic variable, up to the words of
the error. -/
theorem execute_eq_plainSearch
    (hplain : ∀ tokens, tokenize f.expression = .ok tokens → ∀ t ∈ tokens, t.kind ≠ .placeholder)
    (hlisted : ∀ w ∈ vars ++ [f.asVariable], f.name ∉ w.dependencies) :
    (execute f.expression [] r.values r.errors).mapError (·.messageAs f.name) =
      (plainSearch (vars ++ [f.asVariable]) [] f.name).mapError EvalError.message := by
  rw [plainSearch_asVariable, execute]
  -- First the tokens are read, then they are bound or replaced, and then the row is evaluated.
  refine bind_mapError_congr (mapError_messageAs (fun e => ofText_of_tokenize) f.name)
    fun tokens htokens => ?_
  have hne : ∀ t ∈ tokens, t.kind = .identifier → t.text ≠ f.name := fun t ht hk heq =>
    hlisted f.asVariable (by simp) (mem_dependencies.2 ⟨rfl, tokens, htokens, t, ht, hk, heq⟩)
  have hrows := mapM_mapError_congr fun t ht =>
    bound_eq_replaceName hr hlisted (hplain tokens htokens t ht) (hne t ht)
  show ((bindContext [] tokens).bind fun tokens =>
    (bindVariables r.values r.errors tokens).bind evaluateTokens).mapError _ = _
  rw [bindContext_of_plain [] (hplain tokens htokens)]
  show ((bindVariables r.values r.errors tokens).bind evaluateTokens).mapError _ = _
  refine bind_mapError_congr hrows fun row hrow => mapError_messageAs (fun e he => ?_) f.name
  exact ofText_of_evaluateTokens (ranked_of_bindVariables (ranked_of_tokenize htokens) hrow) he

end Recorded

/-- **An expression without placeholders has one meaning, as a formula and as a dynamic variable.**
A variable that no definition mentions can be added without a change of any other entry. It has the
value that the formula has on the list without it, and where the formula fails, its error is the one
that the formula names, the missing variable that the formula misses, or the very error of the
formula. -/
theorem execute_iff_lookup_asVariable {depth : Nat}
    (hcomplete : (resolveWithin depth vars).Complete)
    (hcomplete' : (resolveWithin depth (vars ++ [f.asVariable])).Complete)
    (hplain : ∀ tokens, tokenize f.expression = .ok tokens → ∀ t ∈ tokens, t.kind ≠ .placeholder)
    (hlisted : ∀ w ∈ vars ++ [f.asVariable], f.name ∉ w.dependencies) :
    let r := resolveWithin depth vars
    let r' := resolveWithin depth (vars ++ [f.asVariable])
    (∀ name, name ≠ f.name → r'.entries.lookup name = r.entries.lookup name ∧
      r'.values.lookup name = r.values.lookup name ∧
      r'.errors.lookup name = r.errors.lookup name) ∧
    (∀ x, execute f.expression [] r.values r.errors = .ok x ↔ r'.values.lookup f.name = some x) ∧
    ∀ e, execute f.expression [] r.values r.errors = .error e →
      r'.errors.lookup f.name = some (e.messageAs f.name) := by
  intro r r'
  have hr : r.entries = _ := entries_eq hcomplete
  have hr' : r'.entries = _ := entries_eq hcomplete'
  have hself : f.name ∈ (Definitions.ofList (vars ++ [f.asVariable])).names := by
    rw [mem_names_ofList, List.map_append]
    exact List.mem_append_right _ (List.mem_singleton_self _)
  have hsame := execute_eq_plainSearch hr hplain hlisted
  refine ⟨fun name hne => ?_, fun x => ?_, fun e he => ?_⟩
  · have hname : name ∈ (Definitions.ofList (vars ++ [f.asVariable])).names ↔
        name ∈ (Definitions.ofList vars).names := by
      rw [mem_names_ofList, mem_names_ofList]
      simp [Formula.asVariable, hne]
    have hsearch : plainSearch (vars ++ [f.asVariable]) [] name = plainSearch vars [] name :=
      plainSearch_append_asVariable hlisted (by simp) hne
    simp only [lookup_entries hr, lookup_entries hr', lookup_values hr, lookup_values hr',
      lookup_errors hr, lookup_errors hr', hname, hsearch, and_self]
  · rw [eq_ok_iff_of_mapError_eq hsame, lookup_values hr', if_pos hself]
    cases plainSearch (vars ++ [f.asVariable]) [] f.name <;> simp [Except.toOption]
  · obtain ⟨e', he', hwords⟩ := exists_error_of_mapError_eq hsame he
    rw [lookup_errors hr', if_pos hself, he', ← hwords]
    rfl

/-- A formula that uses two values before it meets a member of a cycle, and after that a name that
is missing. -/
theorem execute_iff_lookup_asVariable_tangled :
    let f : Formula := ⟨"TOTAL", "D * A - C / NONE"⟩
    (resolve tangled).Complete ∧ (resolve (tangled ++ [f.asVariable])).Complete ∧
      (∀ tokens, tokenize f.expression = .ok tokens → ∀ t ∈ tokens, t.kind ≠ .placeholder) ∧
      (∀ w ∈ tangled ++ [f.asVariable], f.name ∉ w.dependencies) ∧
      execute f.expression [] (resolve tangled).values (resolve tangled).errors =
        .error (.variableHasError "C" "Circular dependency detected at \"C\" (C -> B -> C).") ∧
      (resolve (tangled ++ [f.asVariable])).errors.lookup "TOTAL" =
        some "Circular dependency detected at \"C\" (C -> B -> C)." := by
  intro f
  have hcomplete : (resolve tangled).Complete := by decide +kernel
  have hcomplete' : (resolve (tangled ++ [f.asVariable])).Complete := by decide +kernel
  have hplain : ∀ tokens, tokenize f.expression = .ok tokens →
      ∀ t ∈ tokens, t.kind ≠ .placeholder := by
    intro tokens htokens
    have hall : ∀ row ∈ (tokenize f.expression).toOption, ∀ t ∈ row, t.kind ≠ .placeholder := by
      decide +kernel
    exact hall tokens (by rw [htokens]; rfl)
  have hlisted : ∀ w ∈ tangled ++ [f.asVariable], f.name ∉ w.dependencies := by decide +kernel
  have hexecute : execute f.expression [] (resolve tangled).values (resolve tangled).errors =
      .error (.variableHasError "C" "Circular dependency detected at \"C\" (C -> B -> C).") := by
    decide +kernel
  exact ⟨hcomplete, hcomplete', hplain, hlisted, hexecute,
    (execute_iff_lookup_asVariable hcomplete hcomplete' hplain hlisted).2.2 _ hexecute⟩

end Dynamic

end FormulaBook
