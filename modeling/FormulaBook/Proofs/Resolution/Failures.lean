import FormulaBook.Proofs.Arithmetic.Errors
import FormulaBook.Proofs.Resolution.Plain

/-!
# Why a variable has no value

A variable fails for a reason of its own, because a name that it refers to fails, or because it has
been entered again. So every error is the own error of some variable that is reached, or the report
of a cycle.

* `OwnError`: the errors that a variable has by itself;
* `StopsAt`: the tokens of an expression up to one;
* `of_replaceName_error`, `of_plainCompute_error`, `stopsAt_of_plainSearch_error`: a variable fails
  by itself or at the first name in its expression that fails;
* `of_plainSearch_error`: the three reasons for which a plain search fails;
* `origin_of_plainSearch_error`: where an error comes from.
-/

namespace FormulaBook

open Relation

/-- The errors that the variable `user` has by itself. -/
inductive OwnError (user : String) : EvalError → Prop
  | ofText {e : EvalError} (h : e.OfText) : OwnError user e
  | invalidConstant : OwnError user (.invalidConstant user)
  | unknownVariable (name : String) : OwnError user (.unknownVariable name (some user))

theorem OwnError.ne_circularDependency {user c : String} {e : EvalError} {cycle : List String}
    (h : OwnError user e) : e ≠ .circularDependency c cycle := by
  rintro rfl
  cases h with
  | ofText h => exact h

/-- In the expression of the dynamic variable `name`, all tokens before `t` have the property
`p`. -/
def StopsAt (vars : List Variable) (p : Token → Prop) (name : String) (t : Token) : Prop :=
  ∃ v before after, inForce vars name = some v ∧ v.kind.parse = .ok .dynamic ∧
    tokenize v.expression = .ok (before ++ t :: after) ∧ ∀ u ∈ before, p u

theorem StopsAt.mono {vars : List Variable} {p q : Token → Prop} {name : String} {t : Token}
    (hpq : ∀ u, (u.kind = .identifier → Refers vars name u.text) → p u → q u)
    (h : StopsAt vars p name t) : StopsAt vars q name t := by
  obtain ⟨v, before, after, hdef, hkind, htokens, hbefore⟩ := h
  refine ⟨v, before, after, hdef, hkind, htokens, fun u hu => hpq u (fun hk => ?_) (hbefore u hu)⟩
  exact ⟨v, _, hdef, hkind, htokens, u, List.mem_append_left _ hu, hk, rfl⟩

theorem StopsAt.refers {vars : List Variable} {p : Token → Prop} {name : String} {t : Token}
    (h : StopsAt vars p name t) (hk : t.kind = .identifier) : Refers vars name t.text := by
  obtain ⟨v, before, after, hdef, hkind, htokens, -⟩ := h
  exact ⟨v, _, hdef, hkind, htokens, t, by simp, hk, rfl⟩

/-! ### One step -/

section Step

variable {vars : List Variable} {find : String → Except EvalError Float} {e : EvalError}

theorem ranked_of_replaceName {user : String} {t r : Token} (ht : t.Ranked)
    (h : replaceName vars user find t = .ok r) : r.Ranked := by
  unfold replaceName at h
  cases hk : t.kind with
  | placeholder => simp [hk] at h
  | identifier =>
    simp only [hk] at h
    split at h
    · cases h
    · obtain ⟨x, -, rfl⟩ := map_eq_ok.1 h
      exact Token.ranked_of_kind_ne (by simp [Token.ofValue])
  | number | operator | lparen | rparen =>
    simp only [hk] at h
    cases h
    exact ht

/-- A token cannot be replaced because of an error of its own, or it is a name that fails. -/
theorem of_replaceName_error {user : String} {t : Token}
    (h : replaceName vars user find t = .error e) : OwnError user e ∨
      t.kind = .identifier ∧ (inForce vars t.text).isSome = true ∧ find t.text = .error e := by
  unfold replaceName at h
  cases hk : t.kind with
  | placeholder =>
    simp only [hk] at h
    cases h
    exact Or.inl (.ofText trivial)
  | identifier =>
    simp only [hk] at h
    split at h
    · cases h
      exact Or.inl (.unknownVariable t.text)
    · rename_i hdef
      exact Or.inr ⟨rfl, by simpa [Option.isSome_iff_ne_none] using hdef, map_eq_error.1 h⟩
  | number | operator | lparen | rparen => simp [hk] at h

theorem constantValue_eq_error {v : Variable} (h : constantValue v = .error e) :
    e = .invalidConstant v.name := by
  unfold constantValue at h
  split at h
  · split at h <;> cases h
    rfl
  · cases h
    rfl

/-- A variable fails by itself, or at the first name in its expression that fails. -/
theorem of_plainCompute_error {v : Variable} {kind : VariableKind}
    (h : plainCompute vars find v kind = .error e) : OwnError v.name e ∨
      kind = .dynamic ∧ ∃ before t after, tokenize v.expression = .ok (before ++ t :: after) ∧
        (∀ u ∈ before, ∃ r, replaceName vars v.name find u = .ok r) ∧
        t.kind = .identifier ∧ (inForce vars t.text).isSome = true ∧ find t.text = .error e := by
  cases kind with
  | constant =>
    rw [plainCompute] at h
    rw [constantValue_eq_error h]
    exact Or.inl .invalidConstant
  | dynamic =>
    rw [plainCompute] at h
    obtain htokens | ⟨tokens, htokens, h⟩ := bind_eq_error.1 h
    · exact Or.inl (.ofText (ofText_of_tokenize htokens))
    obtain hrow | ⟨row, hrow, hvalue⟩ := bind_eq_error.1 h
    · obtain ⟨before, t, after, rfl, hbefore, he⟩ := mapM_eq_error.1 hrow
      exact (of_replaceName_error he).imp id fun hname =>
        ⟨rfl, before, t, after, htokens, hbefore, hname⟩
    · have hranked : ∀ t ∈ row, t.Ranked := forall_mem_of_mapM
        (fun t ht r hr => ranked_of_replaceName (ranked_of_tokenize htokens t ht) hr) hrow
      exact Or.inl (.ofText (ofText_of_evaluateTokens hranked hvalue))

/-- The search for a defined name that is not on the path fails because of an error of its own, or
at the first name in its expression that fails. -/
theorem stopsAt_of_plainSearch_error {path : List String} {name : String}
    (hdef : (inForce vars name).isSome = true) (hpath : name ∉ path)
    (h : plainSearch vars path name = .error e) : OwnError name e ∨
      ∃ t, StopsAt vars
          (fun u => ∃ r, replaceName vars name (plainSearch vars (path ++ [name])) u = .ok r) name t ∧
        t.kind = .identifier ∧ (inForce vars t.text).isSome = true ∧
        plainSearch vars (path ++ [name]) t.text = .error e := by
  obtain ⟨v, hv⟩ := Option.isSome_iff_exists.1 hdef
  cases hkind : v.kind.parse with
  | error cause =>
    rw [plainSearch_of_parse_error hpath hv hkind] at h
    cases h
    exact Or.inl (.ofText trivial)
  | ok kind =>
    rw [plainSearch_of_parse hpath hv hkind] at h
    have hname := name_of_inForce hv
    obtain hown | ⟨rfl, before, t, after, htokens, hbefore, hfails⟩ := of_plainCompute_error h
    · exact Or.inl (hname ▸ hown)
    · rw [hname] at hbefore
      exact Or.inr ⟨t, ⟨v, before, after, hv, hkind, htokens, hbefore⟩, hfails⟩

/-- The search for a defined name fails because the name is on the path, because of an error of its
own, or because it refers to a name that fails. -/
theorem of_plainSearch_error {path : List String} {name : String}
    (hdef : (inForce vars name).isSome = true) (h : plainSearch vars path name = .error e) :
    (name ∈ path ∧ e = .circularDependency name (path.dropWhile (· != name) ++ [name])) ∨
      name ∉ path ∧ (OwnError name e ∨ ∃ other, Refers vars name other ∧
        (inForce vars other).isSome = true ∧
        plainSearch vars (path ++ [name]) other = .error e) := by
  by_cases hpath : name ∈ path
  · rw [plainSearch_of_mem hpath] at h
    exact Or.inl ⟨hpath, (Except.error.inj h).symm⟩
  · refine Or.inr ⟨hpath, (stopsAt_of_plainSearch_error hdef hpath h).imp id ?_⟩
    rintro ⟨t, hstops, hk, hfails⟩
    exact ⟨t.text, hstops.refers hk, hfails⟩

end Step

/-- Every error comes from a variable that has it by itself and that is reached from the name, or it
is the report of a cycle. -/
theorem origin_of_plainSearch_error {vars : List Variable} {path : List String} {name : String}
    {e : EvalError} (hdef : (inForce vars name).isSome = true)
    (h : plainSearch vars path name = .error e) :
    (∃ user, ReflTransGen (Refers vars) name user ∧ OwnError user e) ∨
      ∃ c cycle, e = .circularDependency c cycle := by
  obtain ⟨v, hv⟩ := Option.isSome_iff_exists.1 hdef
  obtain ⟨-, rfl⟩ | ⟨hpath, hown | ⟨other, hrefers, hsome, he⟩⟩ := of_plainSearch_error hdef h
  · exact Or.inr ⟨_, _, rfl⟩
  · exact Or.inl ⟨name, .refl, hown⟩
  · -- The induction is on the names that are not on the path yet.
    have := offPath_lt hv hpath
    exact (origin_of_plainSearch_error hsome he).imp
      (fun ⟨user, hreach, hown⟩ => ⟨user, .head hrefers hreach, hown⟩) id
termination_by offPath vars path

end FormulaBook
