import FormulaBook.Proofs.Resolution.Failures
import FormulaBook.Proofs.Resolution.Search

/-!
# The token that is to blame

The expression of a dynamic variable is looked through from left to right, and the first token that
cannot be replaced decides the error. Which token that is, is a matter of the definitions alone: it
is a placeholder, a name without a definition or a name without a value, and it does not depend on
the path along which the variable has been reached.

* `Token.Replaceable`: a token that stands for a number or is kept;
* `plainSearch_eq_ok`: along a path of references the plain search finds the values that the
  definitions give;
* `stopsAt_replaceable`: the first token that cannot be replaced, on a path and on none;
* `Blames`: a variable fails because a name in its expression fails;
* `plainSearch_of_blames`, `blames_of_plainSearch_error`: the error of a variable is that of the
  name which is to blame, or its own.
-/

namespace FormulaBook

open Relation

/-- A token that is no placeholder, and that has a value if it is a name. -/
def Token.Replaceable (vars : List Variable) (t : Token) : Prop :=
  t.kind ≠ .placeholder ∧ (t.kind = .identifier → ∃ x, HasValue vars t.text x)

section Path

variable {vars : List Variable} {path : List String} {name other : String} {e : EvalError}

theorem Entered.concat (h : Entered vars name path.reverse) (hpath : name ∉ path)
    (hr : Refers vars name other) : Entered vars other (path ++ [name]).reverse := by
  rw [List.reverse_concat]
  exact h.push (mt List.mem_reverse.1 hpath) hr

/-- Along a path of references, a name has the value that the definitions give, and no other. -/
theorem plainSearch_eq_ok (h : Entered vars name path.reverse) {x : Float} :
    plainSearch vars path name = .ok x ↔ HasValue vars name x := by
  refine ⟨hasValue_of_plainSearch path, fun hx => plainSearch_of_hasValue hx fun k hk => ?_⟩
  exact h.not_reflTransGen hx k (by rwa [List.reverse_reverse])

theorem plainSearch_nil_eq_ok {x : Float} :
    plainSearch vars [] name = .ok x ↔ HasValue vars name x :=
  plainSearch_eq_ok (Entered.nil vars name)

theorem exists_replaceName {user : String} {find : String → Except EvalError Float} {t : Token}
    (hfind : t.kind = .identifier → ∀ x, find t.text = .ok x ↔ HasValue vars t.text x) :
    (∃ r, replaceName vars user find t = .ok r) ↔ t.Replaceable vars := by
  constructor
  · rintro ⟨r, hr⟩
    obtain ⟨hplain, hname⟩ := of_replaceName hr
    refine ⟨hplain, fun hk => ?_⟩
    obtain ⟨-, x, hx⟩ := hname hk
    exact ⟨x, (hfind hk x).1 hx⟩
  · rintro ⟨hplain, hname⟩
    by_cases hk : t.kind = .identifier
    · obtain ⟨x, hx⟩ := hname hk
      exact ⟨t.valued fun _ => x, replaceName_of_value hplain fun _ =>
        ⟨hx.isSome_inForce, (hfind hk x).2 hx⟩⟩
    · exact ⟨t.valued fun _ => 0, replaceName_of_value hplain fun hk' => absurd hk' hk⟩

/-- A search comes to the same token along every path of references. -/
theorem stopsAt_replaceable (h : Entered vars name path.reverse) (hpath : name ∉ path) {t : Token} :
    StopsAt vars
        (fun u => ∃ r, replaceName vars name (plainSearch vars (path ++ [name])) u = .ok r) name t ↔
      StopsAt vars (·.Replaceable vars) name t := by
  have hiff (u : Token) (hrefers : u.kind = .identifier → Refers vars name u.text) :
      (∃ r, replaceName vars name (plainSearch vars (path ++ [name])) u = .ok r) ↔
        u.Replaceable vars :=
    exists_replaceName fun hk _ => plainSearch_eq_ok (h.concat hpath (hrefers hk))
  exact ⟨.mono fun u hu => (hiff u hu).1, .mono fun u hu => (hiff u hu).2⟩

/-- The first token that cannot be replaced decides the error. -/
theorem plainSearch_of_stopsAt (h : Entered vars name path.reverse) (hpath : name ∉ path)
    {t : Token} (hstops : StopsAt vars (·.Replaceable vars) name t)
    (he : replaceName vars name (plainSearch vars (path ++ [name])) t = .error e) :
    plainSearch vars path name = .error e := by
  obtain ⟨v, before, after, hdef, hkind, htokens, hbefore⟩ :=
    (stopsAt_replaceable h hpath).2 hstops
  have hrow : (before ++ t :: after).mapM
      (replaceName vars v.name (plainSearch vars (path ++ [name]))) = .error e := by
    rw [name_of_inForce hdef]
    exact mapM_eq_error.2 ⟨before, t, after, rfl, hbefore, he⟩
  rw [plainSearch_of_parse hpath hdef hkind, plainCompute, htokens]
  simp only [bind, Except.bind, hrow]

/-! ### Names that are to blame -/

/-- The first token in the expression of `name` that cannot be replaced is the defined name
`other`, which has no value. -/
def Blames (vars : List Variable) (name other : String) : Prop :=
  ∃ t, StopsAt vars (·.Replaceable vars) name t ∧ t.kind = .identifier ∧ t.text = other ∧
    (inForce vars other).isSome = true ∧ ∀ x, ¬ HasValue vars other x

theorem Blames.refers (h : Blames vars name other) : Refers vars name other := by
  obtain ⟨t, hstops, hk, rfl, -⟩ := h
  exact hstops.refers hk

theorem Blames.isSome_inForce (h : Blames vars name other) : (inForce vars name).isSome = true := by
  obtain ⟨v, tokens, hdef, -⟩ := h.refers
  rw [hdef]
  rfl

/-- A variable fails like the name that is to blame. -/
theorem plainSearch_of_blames (h : Entered vars name path.reverse) (hpath : name ∉ path)
    (hblames : Blames vars name other) :
    plainSearch vars path name = plainSearch vars (path ++ [name]) other := by
  obtain ⟨t, hstops, hk, rfl, hdef, hvalue⟩ := hblames
  cases hother : plainSearch vars (path ++ [name]) t.text with
  | ok x => exact absurd (hasValue_of_plainSearch _ hother) (hvalue x)
  | error e =>
    refine plainSearch_of_stopsAt h hpath hstops ?_
    simp [replaceName, hk, Option.isNone_eq_false_iff.2 hdef, hother, Except.map]

/-- A variable that fails has an error of its own, or fails like a name that is to blame. -/
theorem blames_of_plainSearch_error (h : Entered vars name path.reverse)
    (hdef : (inForce vars name).isSome = true) (hpath : name ∉ path)
    (he : plainSearch vars path name = .error e) : OwnError name e ∨
      ∃ other, Blames vars name other ∧ plainSearch vars (path ++ [name]) other = .error e := by
  refine (stopsAt_of_plainSearch_error hdef hpath he).imp id ?_
  rintro ⟨t, hstops, hk, hsome, hfails⟩
  have hstops' := (stopsAt_replaceable h hpath).1 hstops
  refine ⟨t.text, ⟨t, hstops', hk, rfl, hsome, fun x hx => ?_⟩, hfails⟩
  have hfound := (plainSearch_eq_ok (h.concat hpath (hstops.refers hk))).2 hx
  cases hfound.symm.trans hfails

end Path

end FormulaBook
