import FormulaBook.Proofs.Resolution.Failures
import FormulaBook.Proofs.Resolution.Search

/-!
# Searches that are cut off

A search has no answer only if it has followed a chain of references that is as long as the depth. A
name whose chains are all shorter is never cut off, and neither is one for which nothing is left to
compute but itself. Only the name that was entered from outside is charged with the chain.

* `ofChain_of_replace`, `ofChain_of_substitute`, `ofChain_of_compute`: a variable has such a failure
  only where a name is entered;
* `enter_ne_depth`: no search charges a name with its chain;
* `exists_refers_of_tooDeep`: a name is cut off through one that it refers to;
* `chain_of_tooDeep`: the chain that a search has followed before it is cut off;
* `ne_tooDeep_of_kept`: what is kept need not be followed.
-/

namespace FormulaBook

section CutOff

variable {enterName : String → Search Float} {defs : Definitions} {user : String} {v : Variable}
  {kind : VariableKind} {t : Token} {tokens row : List Token} {s : SearchState} {e : SearchFailure}

/-- What has a value without any names tells of no chain. -/
theorem not_ofChain_of_mapError {plain : Except EvalError Float}
    (hplain : ∀ e, plain = .error e → e.OfTokens ∨ ∃ name, e = .invalidConstant name)
    (h : plain.mapError .error = .error e) : ¬ e.OfChain := by
  obtain ⟨cause, hcause, rfl⟩ := mapError_eq_error.1 h
  intro hchain
  obtain hown | ⟨name, rfl⟩ := hplain cause hcause
  · unfold SearchFailure.OfChain at hchain
    split at hchain
    · rename_i heq
      cases heq
    · rename_i heq
      cases heq
      exact hown
    · exact hchain
  · exact hchain

theorem ranked_of_replace {r : Token} (ht : t.Ranked)
    (h : (replace enterName defs user t s).1 = .ok r) : r.Ranked := by
  obtain ⟨-, hkept⟩ | ⟨e, -, hrefused⟩ | ⟨hk, hdef⟩ := replace_cases enterName defs user t s
  · rw [hkept] at h
    cases h
    exact ht
  · rw [hrefused] at h
    cases h
  · rw [replace_of_name hk hdef] at h
    obtain ⟨x, -, rfl⟩ := map_eq_ok.1 h
    exact Token.ranked_of_kind_ne (by simp [Token.ofValue])

theorem ranked_of_substitute (htokens : ∀ t ∈ tokens, t.Ranked)
    (h : (substitute enterName defs user tokens s).1 = .ok row) : ∀ t ∈ row, t.Ranked := by
  induction tokens generalizing s row with
  | nil =>
    cases h
    simp
  | cons t rest ih =>
    rw [List.forall_mem_cons] at htokens
    rw [substitute_cons] at h
    obtain ⟨r, hr, h⟩ := andThen_eq_ok.1 h
    obtain ⟨row', hrest, hrow⟩ := andThen_eq_ok.1 h
    cases hrow
    exact List.forall_mem_cons.2 ⟨ranked_of_replace htokens.1 hr, ih htokens.2 hrest⟩

/-- A token has such a failure only if it is a name that is entered. -/
theorem ofChain_of_replace (he : e.OfChain) (h : (replace enterName defs user t s).1 = .error e) :
    t.kind = .identifier ∧ (defs.lookup t.text).isSome = true ∧
      (enterName t.text s).1 = .error e := by
  obtain ⟨-, hkept⟩ | ⟨e', hown, hrefused⟩ | ⟨hk, hdef⟩ := replace_cases enterName defs user t s
  · rw [hkept] at h
    cases h
  · rw [hrefused] at h
    cases h
    obtain rfl | rfl := hown <;> exact he.elim
  · rw [replace_of_name hk hdef] at h
    exact ⟨hk, hdef, map_eq_error.1 h⟩

/-- A row of tokens has such a failure only where a name is entered. -/
theorem ofChain_of_substitute (he : e.OfChain)
    (h : (substitute enterName defs user tokens s).1 = .error e) :
    ∃ other s', EntersIn enterName defs user tokens s other s' ∧
      (enterName other s').1 = .error e := by
  induction tokens generalizing s with
  | nil => cases h
  | cons t rest ih =>
    rw [substitute_cons] at h
    obtain hfirst | ⟨r, hr, hrest⟩ := andThen_eq_error.1 h
    · obtain ⟨hk, hdef, hcut⟩ := ofChain_of_replace he hfirst
      exact ⟨t.text, s, .here hk hdef, hcut⟩
    · obtain hrest | ⟨row, -, hrow⟩ := andThen_eq_error.1 hrest
      · obtain ⟨other, s', hother, hcut⟩ := ih hrest
        exact ⟨other, s', .there hr hother, hcut⟩
      · cases hrow

theorem ofChain_of_compute (he : e.OfChain) (h : (compute enterName defs v kind s).1 = .error e) :
    ∃ other s', Enters enterName defs v s kind other s' ∧ (enterName other s').1 = .error e := by
  cases kind with
  | constant =>
    rw [compute] at h
    generalize hplain : constantValue v = plain at h
    refine absurd he (not_ofChain_of_mapError (fun cause hcause => .inr ⟨v.name, ?_⟩) h)
    exact constantValue_eq_error (hplain.trans hcause)
  | dynamic =>
    rw [compute, dynamicValue_eq] at h
    cases htokens : tokenize v.expression with
    | error cause =>
      rw [htokens] at h
      have hplain : (Except.error cause : Except EvalError Float).mapError .error = .error e := h
      refine absurd he (not_ofChain_of_mapError (fun cause' hcause => .inl ?_) hplain)
      cases hcause
      exact ofTokens_of_tokenize htokens
    | ok tokens =>
      rw [htokens] at h
      obtain hcut | ⟨row, hrow, hvalue⟩ := andThen_eq_error.1 h
      · obtain ⟨other, s', hother, hcut⟩ := ofChain_of_substitute he hcut
        exact ⟨other, s', .dynamic htokens hother, hcut⟩
      · have hranked := ranked_of_substitute (ranked_of_tokenize htokens) hrow
        refine absurd he (not_ofChain_of_mapError (fun cause hcause => .inl ?_) hvalue)
        exact ofTokens_of_evaluateTokens hranked hcause

/-- No search charges a name with a chain that is too long. -/
theorem enter_ne_depth (defs : Definitions) (depth : Nat) (name other : String) (s : SearchState) :
    (enter defs depth name s).1 ≠ .error (.error (.invalidExpression (.depth other))) := by
  induction depth, name, s using enter_induction with
  | kept depth name s outcome hkept hne => exact fun h => hne _ h trivial
  | cut name s => nofun
  | computed depth name s v kind hopens ih =>
    intro h
    rw [leave_fst] at h
    obtain ⟨next, s', -, hcut⟩ := ofChain_of_compute
      (e := .error (.invalidExpression (.depth other))) trivial h
    exact ih next s' hcut

/-- Only the computation of a name is cut off. -/
theorem opens_of_tooDeep {depth : Nat} {name : String}
    (h : (enter defs depth name s).1 = .error .tooDeep) : ∃ v kind, Opens defs s name v kind := by
  obtain hopens | ⟨outcome, hkept, hne, -⟩ := enter_cases defs name s
  · exact hopens
  · rw [hkept] at h
    exact absurd trivial (hne .tooDeep h)

section Defined

variable {vars : List Variable} (hdefs : ∀ name, defs.lookup name = inForce vars name)
  {depth : Nat} {name : String}
include hdefs

/-- A name is cut off before its depth is used up only where one that it refers to is. -/
theorem exists_refers_of_tooDeep (h : (enter defs (depth + 1) name s).1 = .error .tooDeep) :
    ∃ other s', Refers vars name other ∧ (s.push name).Extends s' ∧
      (enter defs depth other s').1 = .error .tooDeep := by
  obtain ⟨v, kind, hopens⟩ := opens_of_tooDeep h
  rw [enter_succ hopens, leave_fst] at h
  obtain ⟨other, s', hother, hcut⟩ := ofChain_of_compute (e := .tooDeep) trivial h
  have hrefers : Refers vars name other :=
    hother.refers ((hdefs name).symm.trans hopens.lookup_eq) hopens.parse_eq
  exact ⟨other, s', hrefers, hother.extends (enter_extends defs depth), hcut⟩

/-- A search that is cut off has followed a chain of as many references as the depth. -/
theorem chain_of_tooDeep (h : (enter defs depth name s).1 = .error .tooDeep) :
    ∃ chain : List String, (name :: chain).IsChain (Refers vars) ∧ chain.length = depth := by
  induction depth generalizing name s with
  | zero => exact ⟨[], List.isChain_singleton name, rfl⟩
  | succ depth ih =>
    obtain ⟨other, s', hrefers, -, hcut⟩ := exists_refers_of_tooDeep hdefs h
    obtain ⟨chain, hchain, hlength⟩ := ih hcut
    exact ⟨other :: chain, List.isChain_cons_cons.2 ⟨hrefers, hchain⟩, by simp [hlength]⟩

/-- A name is not cut off where all that it refers to is kept. -/
theorem ne_tooDeep_of_kept
    (hkept : ∀ other, Refers vars name other → (s.cache.lookup other).isSome = true) :
    (enter defs (depth + 1) name s).1 ≠ .error .tooDeep := by
  intro h
  obtain ⟨other, s', hrefers, hs', hcut⟩ := exists_refers_of_tooDeep hdefs h
  obtain ⟨x, hx⟩ := Option.isSome_iff_exists.1 (hkept other hrefers)
  rw [enter_of_lookup (hs'.lookup hx)] at hcut
  cases hcut

end Defined

end CutOff

end FormulaBook
