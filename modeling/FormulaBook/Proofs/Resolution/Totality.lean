import FormulaBook.Proofs.Resolution.Entries
import FormulaBook.Proofs.Resolution.Failures
import FormulaBook.Proofs.Resolution.Locality

/-!
# Every name has an entry

Whatever the definitions are and however short the chains of references must be, each name of a list
gets a value or an error, and the names are listed in the order in which they first appear. A chain
that is too long is charged to the name at its beginning and to no other: a name whose own chains
are short enough has its value, whatever fails around it.

* `names_ofList`, `names_map`: the names in the order of their first appearance;
* `perm_keys`, `xor_mem_keys`, `keys_values_sublist`, `keys_errors_sublist`: an entry is a value or an
  error, and both are listed in the order of the entries;
* `exists_lookup`: what is found under a name;
* `lookup_values_of_hasValue`: a name whose chains are short enough has its value;
* `resolveWithin_total`: the entries of a list.
-/

namespace FormulaBook

open Relation

/-! ### Names in order -/

theorem names_cons (name : String) (w : Variable) (rest : Definitions) :
    Definitions.names ((name, w) :: rest) = name :: rest.names := rfl

theorem names_define (defs : Definitions) (v : Variable) : (defs.define v).names =
    if v.name ∈ defs.names then defs.names else defs.names ++ [v.name] := by
  induction defs with
  | nil => rfl
  | cons d rest ih =>
    obtain ⟨name, w⟩ := d
    by_cases hname : name = v.name
    · simp [Definitions.define, names_cons, hname]
    · have hdefine : Definitions.define ((name, w) :: rest) v =
          (name, w) :: Definitions.define rest v := by
        simp [Definitions.define, hname]
      rw [hdefine, names_cons, names_cons, ih]
      by_cases hrest : v.name ∈ Definitions.names rest <;> simp [hrest, Ne.symm hname]

theorem ofList_concat (vars : List Variable) (v : Variable) :
    Definitions.ofList (vars ++ [v]) = (Definitions.ofList vars).define v := by
  simp [Definitions.ofList]

/-- The names of a list in the order in which they first appear. -/
theorem names_ofList (vars : List Variable) :
    (Definitions.ofList vars).names = (vars.map (·.name)).eraseDups := by
  induction vars using List.reverseRecOn with
  | nil => rfl
  | append_singleton vars v ih =>
    rw [ofList_concat, names_define, ih, List.map_append, List.map_singleton, eraseDups_concat]
    simp only [List.mem_eraseDups]

/-- A change to the definitions that keeps their names keeps the names of the list. -/
theorem names_map {f : Variable → Variable} (h : ∀ v, (f v).name = v.name) (vars : List Variable) :
    (Definitions.ofList (vars.map f)).names = (Definitions.ofList vars).names := by
  rw [names_ofList, names_ofList, List.map_map]
  exact congrArg List.eraseDups (List.map_congr_left fun v _ => h v)

theorem nodup_names (vars : List Variable) : (Definitions.ofList vars).names.Nodup := by
  rw [names_ofList]
  exact nodup_eraseDups _

/-! ### Values and errors -/

section Keys

variable {r : Resolution} {name : String}

theorem mem_values {x : Float} : (name, x) ∈ r.values ↔ (name, .ok x) ∈ r.entries := by
  simp only [Resolution.values, List.mem_filterMap]
  constructor
  · rintro ⟨⟨key, entry⟩, hentry, hkey⟩
    cases entry with
    | error e => simp [Except.toOption] at hkey
    | ok y =>
      cases hkey
      exact hentry
  · exact fun hentry => ⟨(name, .ok x), hentry, rfl⟩

theorem mem_keys_values : name ∈ r.values.map (·.1) ↔ ∃ x, (name, .ok x) ∈ r.entries := by
  simp only [List.mem_map, Prod.exists, exists_and_right, exists_eq_right, mem_values]

theorem mem_failures {e : EvalError} : (name, e) ∈ r.failures ↔ (name, .error e) ∈ r.entries := by
  simp only [Resolution.failures, List.mem_filterMap]
  constructor
  · rintro ⟨⟨key, entry⟩, hentry, hkey⟩
    cases entry with
    | error e =>
      cases hkey
      exact hentry
    | ok x => cases hkey
  · exact fun hentry => ⟨(name, .error e), hentry, rfl⟩

theorem keys_errors (r : Resolution) : r.errors.map (·.1) = r.failures.map (·.1) := by
  simp [Resolution.errors]

theorem mem_keys_errors : name ∈ r.errors.map (·.1) ↔ ∃ e, (name, .error e) ∈ r.entries := by
  simp only [keys_errors, List.mem_map, Prod.exists, exists_and_right, exists_eq_right,
    mem_failures]

/-- Pairs that keep their keys keep the order of the keys. -/
theorem map_fst_filterMap_sublist {α β : Type} {g : String × α → Option (String × β)}
    (hg : ∀ p q, g p = some q → q.1 = p.1) (l : List (String × α)) :
    ((l.filterMap g).map (·.1)).Sublist (l.map (·.1)) := by
  induction l with
  | nil => exact .slnil
  | cons p l ih =>
    cases hp : g p with
    | none =>
      rw [List.filterMap_cons_none hp]
      exact ih.cons p.1
    | some q =>
      rw [List.filterMap_cons_some hp, List.map_cons, List.map_cons, hg p q hp]
      exact ih.cons_cons p.1

theorem keys_values_sublist (r : Resolution) :
    (r.values.map (·.1)).Sublist (r.entries.map (·.1)) := by
  refine map_fst_filterMap_sublist (fun p q h => ?_) r.entries
  obtain ⟨x, -, rfl⟩ := Option.map_eq_some_iff.1 h
  rfl

theorem keys_errors_sublist (r : Resolution) :
    (r.errors.map (·.1)).Sublist (r.entries.map (·.1)) := by
  rw [keys_errors]
  refine map_fst_filterMap_sublist (fun p q h => ?_) r.entries
  obtain ⟨key, entry⟩ := p
  cases entry with
  | error e =>
    cases h
    rfl
  | ok x => cases h

/-- Each entry of a resolution is a value or an error. -/
theorem perm_keys (r : Resolution) :
    (r.values.map (·.1) ++ r.errors.map (·.1)).Perm (r.entries.map (·.1)) := by
  obtain ⟨entries⟩ := r
  induction entries with
  | nil => exact .nil
  | cons e entries ih =>
    obtain ⟨name, outcome⟩ := e
    cases outcome with
    | ok x => exact ih.cons name
    | error e => exact List.perm_middle.trans (ih.cons name)

/-- A name with one entry is among the values or among the errors, and not among both. -/
theorem xor_mem_keys (hnodup : (r.entries.map (·.1)).Nodup)
    (hname : name ∈ r.entries.map (·.1)) :
    Xor (name ∈ r.values.map (·.1)) (name ∈ r.errors.map (·.1)) := by
  rw [mem_keys_values, mem_keys_errors]
  obtain ⟨⟨_, entry⟩, hentry, rfl⟩ := List.mem_map.1 hname
  have honce : ∀ entry', (_, entry') ∈ r.entries → entry = entry' := fun entry' h =>
    Option.some.inj ((lookup_of_mem hnodup hentry).symm.trans (lookup_of_mem hnodup h))
  cases entry with
  | ok x => exact Or.inl ⟨⟨x, hentry⟩, fun ⟨e, he⟩ => nomatch honce _ he⟩
  | error e => exact Or.inr ⟨⟨e, hentry⟩, fun ⟨x, hx⟩ => nomatch honce _ hx⟩

end Keys

/-! ### The entries of a list -/

section List

variable {depth : Nat} {vars : List Variable} {name : String}

theorem keys_entries (depth : Nat) (vars : List Variable) :
    (resolveWithin depth vars).entries.map (·.1) = (vars.map (·.name)).eraseDups :=
  (map_fst_resolveNames _ _).trans (names_ofList vars)

theorem nodup_keys_entries (depth : Nat) (vars : List Variable) :
    ((resolveWithin depth vars).entries.map (·.1)).Nodup := by
  rw [keys_entries, ← names_ofList]
  exact nodup_names vars

theorem exists_entry : (∃ entry, (name, entry) ∈ (resolveWithin depth vars).entries) ↔
    (inForce vars name).isSome = true := by
  rw [inForce_isSome, ← List.mem_eraseDups, ← keys_entries depth vars]
  simp

/-- Every recorded error is the own error of a variable or the report of a cycle. -/
theorem origin_of_mem_failures {e : EvalError}
    (h : (name, e) ∈ (resolveWithin depth vars).failures) :
    (∃ user, OwnError user e) ∨ ∃ c cycle, e = .circularDependency c cycle := by
  have hentry := mem_failures.1 h
  obtain hplain | ⟨htooDeep, -⟩ := mem_entries hentry
  · exact (origin_of_plainSearch_error (exists_entry.1 ⟨_, hentry⟩) hplain.symm).imp
      (fun ⟨user, _, hown⟩ => ⟨user, hown⟩) id
  · cases htooDeep
    exact Or.inl ⟨name, .ofText trivial⟩

/-- A defined name is found among the values or among the errors, and not among both. -/
theorem exists_lookup (depth : Nat) (h : name ∈ vars.map (·.name)) :
    let r := resolveWithin depth vars
    (∃ x, r.values.lookup name = some x ∧ r.errors.lookup name = none) ∨
      ∃ message, r.values.lookup name = none ∧ r.errors.lookup name = some message := by
  rw [← List.mem_eraseDups, ← keys_entries depth] at h
  obtain ⟨hvalue, herror⟩ | ⟨herror, hvalue⟩ := xor_mem_keys (nodup_keys_entries depth vars) h
  · obtain ⟨x, hx⟩ := Option.isSome_iff_exists.1 (isSome_lookup.2 hvalue)
    exact .inl ⟨x, hx, Option.not_isSome_iff_eq_none.1 (mt isSome_lookup.1 herror)⟩
  · obtain ⟨message, hmessage⟩ := Option.isSome_iff_exists.1 (isSome_lookup.2 herror)
    exact .inr ⟨message, Option.not_isSome_iff_eq_none.1 (mt isSome_lookup.1 hvalue), hmessage⟩

/-- A name has its value if no chain of references from it is as long as the depth. -/
theorem lookup_values_of_hasValue {x : Float} (hx : HasValue vars name x)
    (hchain : ∀ chain : List String, (name :: chain).IsChain (Refers vars) →
      chain.length < depth) : (resolveWithin depth vars).values.lookup name = some x := by
  obtain ⟨entry, hentry⟩ := exists_entry.2 hx.isSome_inForce
  obtain rfl | ⟨-, -, chain, hlong, hlength⟩ := mem_entries hentry
  · rw [plainSearch_of_hasValue hx (by simp)] at hentry
    have hnodup := (keys_values_sublist (resolveWithin depth vars)).nodup
      (nodup_keys_entries depth vars)
    exact lookup_of_mem hnodup (mem_values.2 hentry)
  · exact absurd (hchain chain hlong) (by omega)

end List

/-- **Every name of a list has an entry, however short the chains of references must be.** It is
listed among the values or among the errors, not among both, in the order in which the names first
appear. Every error is one that a variable can have: no search asks for a name without a definition,
and none meets an operator without a rank. And a name has its value if all chains of references from
it are shorter than the depth, whatever else fails or is too deep. -/
theorem resolveWithin_total (depth : Nat) (vars : List Variable) :
    let r := resolveWithin depth vars
    let names := (vars.map (·.name)).eraseDups
    (∀ name ∈ names, Xor (name ∈ r.values.map (·.1)) (name ∈ r.errors.map (·.1))) ∧
      (r.values.map (·.1)).Sublist names ∧ (r.errors.map (·.1)).Sublist names ∧
      (∀ name e, (name, e) ∈ r.failures →
        (∃ user, OwnError user e) ∨ ∃ c cycle, e = .circularDependency c cycle) ∧
      ∀ name x, HasValue vars name x →
        (∀ chain : List String, (name :: chain).IsChain (Refers vars) → chain.length < depth) →
        r.values.lookup name = some x := by
  intro r names
  have hkeys : r.entries.map (·.1) = names := keys_entries depth vars
  have hnodup : (r.entries.map (·.1)).Nodup := nodup_keys_entries depth vars
  refine ⟨fun name hname => ?_, ?_, ?_, fun name e => origin_of_mem_failures,
    fun name x => lookup_values_of_hasValue⟩
  · rw [← hkeys] at hname
    exact xor_mem_keys hnodup hname
  · rw [← hkeys]
    exact keys_values_sublist r
  · rw [← hkeys]
    exact keys_errors_sublist r

/-- Three names one above the other, the highest one first, and a name that is missing. -/
def steep : List Variable :=
  [⟨"C", .known .dynamic, "B + A"⟩, ⟨"B", .known .dynamic, "A * A"⟩,
    ⟨"D", .known .dynamic, "A - E"⟩, ⟨"A", .known .constant, "3"⟩]

/-- A search that is cut off in the middle spoils no later one: with chains of less than two
references `C` is too deep, but `B`, where the search for `C` had been cut off, has its value. -/
theorem resolveWithin_total_steep :
    HasValue steep "B" 9 ∧
      (∀ chain : List String, ("B" :: chain).IsChain (Refers steep) → chain.length < 2) ∧
      "C" ∈ (resolveWithin 2 steep).errors.map (·.1) ∧
      (resolveWithin 2 steep).values.lookup "B" = some 9 := by
  have hvalue : HasValue steep "B" 9 := hasValue_of_plainSearch [] (by decide +kernel)
  have hbelow : ∀ k, Refers steep "B" k → k = "A" := fun k hk =>
    (by decide +kernel : ∀ k ∈ dependenciesOf steep "B", k = "A") k hk.dependsOn
  have hlowest : ∀ k, ¬ Refers steep "A" k := fun k hk =>
    (by decide +kernel : ∀ k ∈ dependenciesOf steep "A", False) k hk.dependsOn
  have hchain : ∀ chain : List String, ("B" :: chain).IsChain (Refers steep) →
      chain.length < 2 := by
    intro chain h
    match chain, h with
    | [], _ => decide
    | [_], _ => simp
    | a :: b :: _, h =>
      obtain ⟨hfirst, h⟩ := List.isChain_cons_cons.1 h
      obtain ⟨hsecond, -⟩ := List.isChain_cons_cons.1 h
      exact absurd (hbelow a hfirst ▸ hsecond) (hlowest b)
  exact ⟨hvalue, hchain, by decide +kernel,
    (resolveWithin_total 2 steep).2.2.2.2 "B" 9 hvalue hchain⟩

end FormulaBook
