import FormulaBook.Proofs.Resolution.Frame
import FormulaBook.Proofs.Resolution.Plain
import Mathlib.Data.List.Chain

/-!
# The search with a memory

The search that resolves a list keeps the values that it has found and one stack of the names that
are being computed. It finds for every name what the plain search finds along the path that is on
the stack: a value that is kept does not depend on the path, since from a name with a value no name
that is being computed can be reached.

* `Agrees`, `Ends`: an outcome is that of the plain search, unless the search was cut off;
* `Sound`: the kept values are those that the definitions give;
* `Entered`: the names on the stack, each of which refers to the one above it;
* `SearchState.Marked`: the names that are marked are those on the stack;
* `replace_ends`, `substitute_ends`, `compute_ends`, `enter_ends`: every step of the search agrees.
-/

namespace FormulaBook

open Relation

/-! ### Outcomes and states -/

/-- The outcome of a search is that of the plain one, or the search was cut off, which `cut` must
explain. -/
inductive Agrees {α : Type} (cut : Prop) : Except SearchFailure α → Except EvalError α → Prop
  | ok (a : α) : Agrees cut (.ok a) (.ok a)
  | error (e : EvalError) : Agrees cut (.error (.error e)) (.error e)
  | tooDeep (h : cut) (plain : Except EvalError α) : Agrees cut (.error .tooDeep) plain

theorem Agrees.mono {α : Type} {cut cut' : Prop} (h : cut → cut') {r : Except SearchFailure α}
    {plain : Except EvalError α} (hr : Agrees cut r plain) : Agrees cut' r plain := by
  cases hr with
  | ok a => exact .ok a
  | error e => exact .error e
  | tooDeep hcut => exact .tooDeep (h hcut) _

theorem Agrees.eq_or_tooDeep {α : Type} {cut : Prop} {r : Except SearchFailure α}
    {plain : Except EvalError α} (h : Agrees cut r plain) :
    r = plain.mapError .error ∨ r = .error .tooDeep ∧ cut := by
  cases h with
  | ok a => exact Or.inl rfl
  | error e => exact Or.inl rfl
  | tooDeep hcut => exact Or.inr ⟨rfl, hcut⟩

theorem agrees_mapError {α : Type} (cut : Prop) (plain : Except EvalError α) :
    Agrees cut (plain.mapError .error) plain := by
  cases plain with
  | ok a => exact .ok a
  | error e => exact .error e

/-- The kept values are those that the definitions give. -/
def Sound (vars : List Variable) (cache : List (String × Float)) : Prop :=
  ∀ name x, cache.lookup name = some x → HasValue vars name x

/-- A search ends with the outcome of the plain one, and keeps right values only. -/
structure Ends {α : Type} (vars : List Variable) (cut : Prop) (plain : Except EvalError α)
    (result : Except SearchFailure α × SearchState) : Prop where
  agrees : Agrees cut result.1 plain
  sound : Sound vars result.2.cache

section Ends

variable {α β : Type} {vars : List Variable} {cut : Prop} {plain : Except EvalError α}
  {result : Except SearchFailure α × SearchState}

theorem Ends.mono {cut' : Prop} (h : cut → cut') (hr : Ends vars cut plain result) :
    Ends vars cut' plain result :=
  ⟨hr.agrees.mono h, hr.sound⟩

theorem Ends.andThen (h : Ends vars cut plain result) {f : α → Except EvalError β}
    {next : α → Search β}
    (hnext : ∀ a, Sound vars result.2.cache → Ends vars cut (f a) (next a result.2)) :
    Ends vars cut (plain.bind f) (FormulaBook.andThen result next) := by
  obtain ⟨hagrees, hsound⟩ := h
  obtain ⟨outcome, s'⟩ := result
  cases hagrees with
  | ok a => exact hnext a hsound
  | error e => exact ⟨.error e, hsound⟩
  | tooDeep hcut => exact ⟨.tooDeep hcut _, hsound⟩

theorem Ends.map (h : Ends vars cut plain result) (f : α → β) :
    Ends vars cut (plain.map f) (result.1.map f, result.2) := by
  obtain ⟨hagrees, hsound⟩ := h
  obtain ⟨outcome, s'⟩ := result
  cases hagrees with
  | ok a => exact ⟨.ok (f a), hsound⟩
  | error e => exact ⟨.error e, hsound⟩
  | tooDeep hcut => exact ⟨.tooDeep hcut _, hsound⟩

end Ends

/-- The names on the stack when `name` is entered: each refers to the one above it, the innermost
one to `name`, and none is there twice. -/
structure Entered (vars : List Variable) (name : String) (stack : List String) : Prop where
  nodup : stack.Nodup
  chain : (name :: stack).IsChain fun a b => Refers vars b a

namespace Entered

variable {vars : List Variable} {name : String} {stack : List String}

theorem nil (vars : List Variable) (name : String) : Entered vars name [] :=
  ⟨List.nodup_nil, List.isChain_singleton name⟩

theorem push (h : Entered vars name stack) (hname : name ∉ stack) {other : String}
    (hr : Refers vars name other) : Entered vars other (name :: stack) :=
  ⟨List.nodup_cons.2 ⟨hname, h.nodup⟩, List.isChain_cons_cons.2 ⟨hr, h.chain⟩⟩

/-- Every name on the stack leads to the one that is entered. -/
theorem transGen (h : Entered vars name stack) :
    ∀ k ∈ stack, TransGen (Refers vars) k name := by
  obtain ⟨-, hchain⟩ := h
  induction stack generalizing name with
  | nil => simp
  | cons top rest ih =>
    obtain ⟨htop, hrest⟩ := List.isChain_cons_cons.1 hchain
    intro k hk
    rcases List.mem_cons.1 hk with rfl | hk
    · exact .single htop
    · exact (ih hrest k hk).tail htop

/-- From an entered name that has a value, no name on the stack is reached. -/
theorem not_reflTransGen (h : Entered vars name stack) {x : Float} (hx : HasValue vars name x) :
    ∀ k ∈ stack.reverse, ¬ ReflTransGen (Refers vars) name k := by
  intro k hk hreach
  exact hx.not_transGen_self (.trans_right hreach (h.transGen k (List.mem_reverse.1 hk)))

end Entered

/-- The names that are marked as being computed are those on the stack. -/
def SearchState.Marked (s : SearchState) : Prop := ∀ k, k ∈ s.inProgress ↔ k ∈ s.stack

namespace SearchState.Marked

variable {s s' : SearchState} {name : String}

theorem push (h : s.Marked) (name : String) : (s.push name).Marked := fun k => by
  simp [SearchState.push, h k]

theorem of_extends (h : s.Marked) (hs' : s.Extends s') : s'.Marked := fun k => by
  rw [hs'.inProgress_eq, hs'.stack_eq]
  exact h k

end SearchState.Marked

theorem cycle_eq (s : SearchState) (name : String) :
    s.cycle name = s.stack.reverse.dropWhile (· != name) ++ [name] := by
  have hplace : (s.place? name).getD s.stack.length =
      s.stack.reverse.findIdx fun k => !(k != name) := by
    rw [SearchState.place?, ← List.length_reverse, ← List.idxOf_eq_getD_idxOf?]
    simp [List.idxOf, bne]
  rw [SearchState.cycle, hplace, List.dropWhile_eq_drop_findIdx_not]

/-! ### The steps of a search -/

/-- A name that is entered while a variable is computed is one that the variable refers to. -/
theorem Enters.refers {vars : List Variable} {enterName : String → Search Float}
    {defs : Definitions} {name other : String} {v : Variable} {kind : VariableKind}
    {s s' : SearchState} (h : Enters enterName defs v s kind other s')
    (hdef : inForce vars name = some v) (hkind : v.kind.parse = .ok kind) :
    Refers vars name other := by
  obtain ⟨htokens, h⟩ := h
  obtain ⟨t, ht, hk, htext, -⟩ := h.exists_token
  exact ⟨v, _, hdef, hkind, htokens, t, ht, hk, htext⟩

section Steps

variable {vars : List Variable} {defs : Definitions} {cut : Prop}
  {enterName : String → Search Float} {find : String → Except EvalError Float}

/-- A token is replaced as in the plain search, if a name is entered as in the plain search. -/
theorem replace_ends (hdefs : ∀ name, defs.lookup name = inForce vars name) (user : String)
    {t : Token} {s : SearchState} (hs : Sound vars s.cache)
    (henter : t.kind = .identifier → Ends vars cut (find t.text) (enterName t.text s)) :
    Ends vars cut (replaceName vars user find t) (replace enterName defs user t s) := by
  cases hk : t.kind with
  | placeholder =>
    rw [replaceName, replace, hk]
    exact ⟨.error _, hs⟩
  | identifier =>
    rw [replaceName, replace, hk]
    simp only [hdefs]
    split
    · exact ⟨.error _, hs⟩
    · exact (henter hk).map (Token.ofValue · t.position)
  | number | operator | lparen | rparen =>
    rw [replaceName, replace, hk]
    exact ⟨.ok t, hs⟩

/-- The tokens of an expression are replaced as in the plain search, if its names are entered as in
the plain search. -/
theorem substitute_ends (hdefs : ∀ name, defs.lookup name = inForce vars name) (user : String)
    {tokens : List Token} {s : SearchState} (hs : Sound vars s.cache)
    (hextends : ∀ name (s : SearchState), s.Extends (enterName name s).2)
    (henter : ∀ t ∈ tokens, t.kind = .identifier → ∀ s', s.Extends s' → Sound vars s'.cache →
      Ends vars cut (find t.text) (enterName t.text s')) :
    Ends vars cut (tokens.mapM (replaceName vars user find))
      (substitute enterName defs user tokens s) := by
  induction tokens generalizing s with
  | nil => exact ⟨.ok [], hs⟩
  | cons t rest ih =>
    rw [List.forall_mem_cons] at henter
    have hfirst : Ends vars cut (replaceName vars user find t) (replace enterName defs user t s) :=
      replace_ends hdefs user hs fun hk => henter.1 hk s (.refl s) hs
    have hkept : s.Extends (replace enterName defs user t s).2 := replace_extends hextends user t s
    rw [mapM_cons_eq_bind, substitute_cons]
    refine hfirst.andThen fun r hsound => ?_
    rw [map_eq_bind]
    refine Ends.andThen (ih hsound fun t' ht' hk s' hs' => ?_) fun row hrow => ⟨.ok _, hrow⟩
    exact henter.2 t' ht' hk s' (hkept.trans hs')

/-- A variable is computed as in the plain search, if the names in its expression are entered as in
the plain search. -/
theorem compute_ends (hdefs : ∀ name, defs.lookup name = inForce vars name) {name : String}
    {v : Variable} (hdef : inForce vars name = some v) {kind : VariableKind}
    (hkind : v.kind.parse = .ok kind) {s : SearchState} (hs : Sound vars s.cache)
    (hextends : ∀ name (s : SearchState), s.Extends (enterName name s).2)
    (henter : ∀ other, Refers vars name other → ∀ s', s.Extends s' → Sound vars s'.cache →
      Ends vars cut (find other) (enterName other s')) :
    Ends vars cut (plainCompute vars find v kind) (compute enterName defs v kind s) := by
  cases kind with
  | constant =>
    rw [compute, plainCompute]
    generalize constantValue v = plain
    exact ⟨agrees_mapError cut plain, hs⟩
  | dynamic =>
    rw [compute, dynamicValue_eq, plainCompute]
    cases htokens : tokenize v.expression with
    | error e => exact ⟨.error e, hs⟩
    | ok tokens =>
      refine (substitute_ends hdefs v.name hs hextends fun t ht hk => ?_).andThen
        fun row hsound => ⟨agrees_mapError cut _, hsound⟩
      exact henter t.text ⟨v, tokens, hdef, hkind, htokens, t, ht, hk, rfl⟩

end Steps

theorem Sound.store {vars : List Variable} {s : SearchState} {name : String} {x : Float}
    (hs : Sound vars s.cache) (hx : HasValue vars name x) : Sound vars (s.store name x).cache := by
  intro other y hy
  by_cases h : other = name
  · subst h
    rw [SearchState.store, List.lookup_cons_self] at hy
    exact Option.some.inj hy ▸ hx
  · rw [SearchState.store, lookup_cons_of_ne h] at hy
    exact hs other y hy

/-! ### Entering a name -/

/-- A computation that ends well with `name` on top of the stack also ends well without it. -/
theorem Ends.leave {vars : List Variable} {cut : Prop} {name : String}
    {plain : Except EvalError Float} {result : Except SearchFailure Float × SearchState}
    (h : Ends vars cut plain result) (hplain : ∀ x, plain = .ok x → HasValue vars name x) :
    Ends vars cut plain (FormulaBook.leave name result) := by
  obtain ⟨hagrees, hsound⟩ := h
  obtain ⟨outcome, s'⟩ := result
  cases hagrees with
  | ok x => exact ⟨.ok x, hsound.store (hplain x rfl)⟩
  | error e => exact ⟨.error e, hsound⟩
  | tooDeep hcut => exact ⟨.tooDeep hcut _, hsound⟩

/-- **Every name is entered as in the plain search along the stack**, unless the depth is less than
the number of the names that are not on the stack. -/
theorem enter_ends {vars : List Variable} {defs : Definitions}
    (hdefs : ∀ name, defs.lookup name = inForce vars name) (depth : Nat) {name : String}
    {s : SearchState} (hs : Sound vars s.cache) (hmarked : s.Marked)
    (hname : Entered vars name s.stack) :
    Ends vars (depth < offPath vars s.stack.reverse) (plainSearch vars s.stack.reverse name)
      (enter defs depth name s) := by
  cases hcache : s.cache.lookup name with
  | some x =>
    -- A kept value is found on this path too, since `name` leads to no name on it.
    have hx := hs name x hcache
    rw [enter_of_lookup hcache, plainSearch_of_hasValue hx (hname.not_reflTransGen hx)]
    exact ⟨.ok x, hs⟩
  | none =>
    by_cases hmem : name ∈ s.inProgress
    · have hpath : name ∈ s.stack.reverse := List.mem_reverse.2 ((hmarked name).1 hmem)
      rw [enter_of_mem hcache hmem, plainSearch_of_mem hpath, ← cycle_eq]
      exact ⟨.error _, hs⟩
    have hadmits : s.Admits name := ⟨hcache, hmem⟩
    have hstack : name ∉ s.stack := mt (hmarked name).2 hmem
    have hpath : name ∉ s.stack.reverse := mt List.mem_reverse.1 hstack
    cases hdef : inForce vars name with
    | none =>
      rw [enter_of_lookup_eq_none hadmits ((hdefs name).trans hdef),
        plainSearch_of_inForce_none hpath hdef]
      exact ⟨.error _, hs⟩
    | some v =>
      have hlookup : defs.lookup name = some v := (hdefs name).trans hdef
      cases hkind : v.kind.parse with
      | error cause =>
        rw [enter_of_parse_error hadmits hlookup hkind,
          plainSearch_of_parse_error hpath hdef hkind]
        exact ⟨.error _, hs⟩
      | ok kind =>
        have hoff := offPath_lt hdef hpath
        cases depth with
        | zero =>
          -- `name` itself is defined and not on the path, so the depth is too small.
          rw [enter_zero ⟨hadmits, hlookup, hkind⟩]
          exact ⟨.tooDeep (by omega) _, hs⟩
        | succ depth =>
          have hplain := plainSearch_of_parse hpath hdef hkind
          have hreverse : s.stack.reverse ++ [name] = (s.push name).stack.reverse :=
            List.reverse_cons.symm
          rw [hreverse] at hoff hplain
          -- Inside, every name is entered with `name` on top of the stack.
          have hcomputed := compute_ends (s := s.push name) hdefs hdef hkind hs
            (enter_extends defs depth) fun other hrefers s' hs' hsound' => by
              have hother : Entered vars other s'.stack := by
                rw [hs'.stack_eq]
                exact hname.push hstack hrefers
              have h := enter_ends hdefs depth hsound' ((hmarked.push name).of_extends hs') hother
              rw [hs'.stack_eq] at h
              exact h
          rw [← hplain] at hcomputed
          rw [enter_succ ⟨hadmits, hlookup, hkind⟩]
          exact (hcomputed.leave fun x => hasValue_of_plainSearch _).mono fun hcut => by omega

end FormulaBook
