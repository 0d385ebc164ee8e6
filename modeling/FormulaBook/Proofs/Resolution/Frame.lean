import FormulaBook.Proofs.Lookup
import FormulaBook.Proofs.Resolution.Step

/-!
# What a search leaves behind

Whatever becomes of a name that is entered, and in whatever state: the same names are being computed
afterwards as before, and the values that were kept are kept. Only new values have been added, none
of them twice and none of a name that is being computed.

* `SearchState.Extends`: a state with further values;
* `SearchState.Extends.leave`: the end of a computation undoes its beginning;
* `enter_extends`: a name that is entered adds values;
* `lookup_of_enter_eq_ok`: a value that is found is kept;
* `settled`: the state after some names have been entered one after the other.
-/

namespace FormulaBook

namespace SearchState

/-- `s'` is the state `s` with further values, one for each name, of names that could have been
computed in `s`. -/
structure Extends (s s' : SearchState) : Prop where
  inProgress_eq : s'.inProgress = s.inProgress
  stack_eq : s'.stack = s.stack
  exists_cache : ∃ added, s'.cache = added ++ s.cache ∧ (added.map (·.1)).Nodup ∧
    ∀ k ∈ added.map (·.1), s.Admits k

namespace Extends

variable {s s' s'' : SearchState} {name : String}

theorem refl (s : SearchState) : s.Extends s :=
  ⟨rfl, rfl, [], rfl, List.nodup_nil, by simp⟩

theorem suffix (h : s.Extends s') : s.cache <:+ s'.cache := by
  obtain ⟨added, hcache, -⟩ := h.exists_cache
  exact ⟨added, hcache.symm⟩

theorem lookup (h : s.Extends s') {x : Float} (hx : s.cache.lookup name = some x) :
    s'.cache.lookup name = some x := by
  obtain ⟨added, hcache, -, hnew⟩ := h.exists_cache
  have hname : added.lookup name = none := by
    refine lookup_eq_none_iff.2 fun hadded => ?_
    rw [(hnew name hadded).lookup_eq] at hx
    cases hx
  rw [hcache, List.lookup_append, hname, hx]
  rfl

/-- What can be computed in the state with further values could have been computed before. -/
theorem admits (h : s.Extends s') (hname : s'.Admits name) : s.Admits name where
  lookup_eq := by
    cases hx : s.cache.lookup name with
    | none => rfl
    | some x => cases (h.lookup hx).symm.trans hname.lookup_eq
  not_mem := h.inProgress_eq ▸ hname.not_mem

/-- A name that is being computed has no value meanwhile. -/
theorem lookup_eq_none (h : s.Extends s') (hname : name ∈ s.inProgress)
    (hnone : s.cache.lookup name = none) : s'.cache.lookup name = none := by
  obtain ⟨added, hcache, -, hnew⟩ := h.exists_cache
  rw [hcache, List.lookup_append, hnone, Option.or_none]
  exact lookup_eq_none_iff.2 fun hadded => (hnew name hadded).not_mem hname

theorem trans (h : s.Extends s') (h' : s'.Extends s'') : s.Extends s'' where
  inProgress_eq := h'.inProgress_eq.trans h.inProgress_eq
  stack_eq := h'.stack_eq.trans h.stack_eq
  exists_cache := by
    obtain ⟨added, hcache, hnodup, hnew⟩ := h.exists_cache
    obtain ⟨added', hcache', hnodup', hnew'⟩ := h'.exists_cache
    have hapart : ∀ k ∈ added'.map (·.1), k ∉ added.map (·.1) := by
      intro k hk hmem
      have hnone := (hnew' k hk).lookup_eq
      rw [hcache, List.lookup_append, Option.or_eq_none_iff] at hnone
      exact lookup_eq_none_iff.1 hnone.1 hmem
    refine ⟨added' ++ added, by rw [hcache', hcache, List.append_assoc], ?_, fun k hk => ?_⟩
    · rw [List.map_append, List.nodup_append]
      exact ⟨hnodup', hnodup, fun k hk k' hk' heq => hapart k hk (heq ▸ hk')⟩
    · rw [List.map_append, List.mem_append] at hk
      exact hk.elim (fun hk => h.admits (hnew' k hk)) (hnew k)

end Extends

/-! ### The beginning and the end of a computation -/

section Push

variable {s s' : SearchState} {name : String}

theorem push_inProgress (h : s.Admits name) : (s.push name).inProgress = name :: s.inProgress :=
  List.insert_of_not_mem h.not_mem

theorem mem_push (s : SearchState) (name : String) : name ∈ (s.push name).inProgress :=
  List.mem_insert_self

/-- The end of a computation undoes its beginning, if the same names are being computed then. -/
theorem Extends.pop (h : (s.push name).Extends s') (hname : s.Admits name) :
    (s'.pop name).inProgress = s.inProgress ∧ (s'.pop name).stack = s.stack := by
  have hmarks : s'.inProgress = name :: s.inProgress :=
    h.inProgress_eq.trans (push_inProgress hname)
  have hstack : s'.stack = name :: s.stack := h.stack_eq
  exact ⟨by rw [SearchState.pop, hmarks, List.erase_cons_head], by simp [SearchState.pop, hstack]⟩

/-- A computation that adds values to the state with `name` marked adds values to the state without
it, among them perhaps the one of `name`. -/
theorem Extends.leave {result : Except SearchFailure Float × SearchState}
    (h : (s.push name).Extends result.2) (hname : s.Admits name) :
    s.Extends (FormulaBook.leave name result).2 := by
  obtain ⟨outcome, s'⟩ := result
  obtain ⟨hmarks, hstack⟩ := h.pop hname
  obtain ⟨added, hcache, hnodup, hnew⟩ := h.exists_cache
  have hnew' : ∀ k ∈ added.map (·.1), k ≠ name ∧ s.Admits k := by
    intro k hk
    obtain ⟨hlookup, hmem⟩ := hnew k hk
    rw [push_inProgress hname, List.mem_cons, not_or] at hmem
    exact ⟨hmem.1, hlookup, hmem.2⟩
  cases outcome with
  | error e => exact ⟨hmarks, hstack, added, hcache, hnodup, fun k hk => (hnew' k hk).2⟩
  | ok x =>
    refine ⟨hmarks, hstack, (name, x) :: added, congrArg ((name, x) :: ·) hcache, ?_, ?_⟩
    · exact List.nodup_cons.2 ⟨fun hmem => (hnew' name hmem).1 rfl, hnodup⟩
    · exact List.forall_mem_cons.2 ⟨hname, fun k hk => (hnew' k hk).2⟩

end Push

end SearchState

/-! ### Names that are entered -/

section Enter

variable {enterName : String → Search Float} {defs : Definitions}

theorem replace_extends (henter : ∀ name (s : SearchState), s.Extends (enterName name s).2)
    (user : String) (t : Token) (s : SearchState) :
    s.Extends (replace enterName defs user t s).2 :=
  replace_induction (.refl s) fun _ _ => henter t.text s

theorem substitute_extends (henter : ∀ name (s : SearchState), s.Extends (enterName name s).2)
    (user : String) (tokens : List Token) (s : SearchState) :
    s.Extends (substitute enterName defs user tokens s).2 :=
  substitute_induction (.refl s) fun other s' _ hs' => hs'.trans (henter other s')

theorem compute_extends (henter : ∀ name (s : SearchState), s.Extends (enterName name s).2)
    (v : Variable) (kind : VariableKind) (s : SearchState) :
    s.Extends (compute enterName defs v kind s).2 :=
  compute_induction (.refl s) fun other s' _ hs' => hs'.trans (henter other s')

theorem EntersIn.extends (henter : ∀ name (s : SearchState), s.Extends (enterName name s).2)
    {user other : String} {tokens : List Token} {s s' : SearchState}
    (h : EntersIn enterName defs user tokens s other s') : s.Extends s' :=
  h.induction (.refl s) fun other s' hs' => hs'.trans (henter other s')

theorem Enters.extends (henter : ∀ name (s : SearchState), s.Extends (enterName name s).2)
    {v : Variable} {kind : VariableKind} {other : String} {s s' : SearchState}
    (h : Enters enterName defs v s kind other s') : s.Extends s' := by
  obtain ⟨-, h⟩ := h
  exact h.extends henter

/-- What follows a name in a row adds values to those that are there when the name has been
entered. -/
theorem EntersIn.extends_substitute
    (henter : ∀ name (s : SearchState), s.Extends (enterName name s).2) {user other : String}
    {tokens : List Token} {s s' : SearchState}
    (h : EntersIn enterName defs user tokens s other s') :
    (enterName other s').2.Extends (substitute enterName defs user tokens s).2 := by
  induction h with
  | @here t rest s hk hdef =>
    have hfirst : (enterName t.text s).2 = (replace enterName defs user t s).2 := by
      rw [replace_of_name hk hdef]
    rw [substitute_cons, hfirst]
    refine andThen_induction (.refl _) fun r _ => ?_
    rw [andThen_map_snd]
    exact substitute_extends henter user rest _
  | there hr h ih =>
    rw [substitute_cons, andThen_of_ok hr, andThen_map_snd]
    exact ih

theorem Enters.extends_compute
    (henter : ∀ name (s : SearchState), s.Extends (enterName name s).2) {v : Variable}
    {kind : VariableKind} {other : String} {s s' : SearchState}
    (h : Enters enterName defs v s kind other s') :
    (enterName other s').2.Extends (compute enterName defs v kind s).2 := by
  obtain ⟨htokens, h⟩ := h
  rw [compute, dynamicValue_eq, htokens]
  exact andThen_induction (h.extends_substitute henter) fun _ _ => h.extends_substitute henter

/-- **Whatever becomes of a name that is entered, it only adds values.** -/
theorem enter_extends (defs : Definitions) (depth : Nat) (name : String) (s : SearchState) :
    s.Extends (enter defs depth name s).2 := by
  induction depth, name, s using enter_induction with
  | kept depth name s outcome _ _ => exact .refl s
  | cut name s => exact .refl s
  | computed depth name s v kind hopens ih =>
    exact (compute_extends ih v kind (s.push name)).leave hopens.admits

/-- A value that is found is kept. -/
theorem lookup_of_enter_eq_ok {depth : Nat} {name : String} {s : SearchState} {x : Float}
    (h : (enter defs depth name s).1 = .ok x) :
    (enter defs depth name s).2.cache.lookup name = some x := by
  obtain ⟨v, kind, hopens⟩ | ⟨outcome, hkept, -, hlookup⟩ := enter_cases defs name s
  · cases depth with
    | zero =>
      rw [enter_zero hopens] at h
      cases h
    | succ depth =>
      rw [enter_succ hopens, leave_fst] at h
      rw [enter_succ hopens, leave_cache_of_ok h, List.lookup_cons_self]
  · rw [hkept] at h ⊢
    exact hlookup x h

end Enter

/-! ### Names that are entered from outside -/

/-- The state after some names have been entered, one after the other. -/
def settled (defs : Definitions) (depth : Nat) (names : List String) (s : SearchState) :
    SearchState :=
  names.foldl (fun s name => (enter defs depth name s).2) s

section Settled

variable {defs : Definitions} {depth : Nat} {s : SearchState}

theorem settled_append (names names' : List String) (s : SearchState) :
    settled defs depth (names ++ names') s =
      settled defs depth names' (settled defs depth names s) :=
  List.foldl_append

/-- What is kept whenever a name is entered holds after any names. -/
theorem settled_induction {P : SearchState → Prop} (names : List String) (hs : P s)
    (henter : ∀ name s, P s → P (enter defs depth name s).2) : P (settled defs depth names s) := by
  induction names generalizing s with
  | nil => exact hs
  | cons name names ih => exact ih (henter name s hs)

theorem settled_extends (defs : Definitions) (depth : Nat) (names : List String)
    (s : SearchState) : s.Extends (settled defs depth names s) :=
  settled_induction names (.refl s) fun name s' hs' => hs'.trans (enter_extends defs depth name s')

end Settled

end FormulaBook
