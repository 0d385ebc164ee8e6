import FormulaBook.Proofs.Resolution.Depth

/-!
# The entries of a list

What is recorded for the names of a list, as long as no chain of references was too long: for each
name the outcome of the plain search, and so a value exactly where the definitions give one.

* `Resolution.Complete`: no chain was too long;
* `mem_entries`, `entries_eq`, `entries_eq_of_offPath_le`: the recorded outcomes, in the order of the
  names;
* `lookup_entries`, `lookup_values`, `lookup_errors`: outcomes, values and messages by name;
* `lookup_of_plainSearch_error`: the entry of a name whose search fails;
* `entries_lookup`: the entry of a name is the outcome of the plain search;
* `lookup_values_iff_hasValue`: the values are those that the definitions give.
-/

namespace FormulaBook

open Relation

/-- No chain of references was too long to follow. -/
def Resolution.Complete (r : Resolution) : Prop :=
  ∀ p ∈ r.entries, p.2 ≠ .error (.invalidExpression (.depth p.1))

instance (r : Resolution) : Decidable r.Complete :=
  inferInstanceAs (Decidable (∀ p ∈ r.entries, p.2 ≠ .error (.invalidExpression (.depth p.1))))

/-! ### What is recorded -/

section Recorded

variable {vars : List Variable} {defs : Definitions} {depth : Nat}

theorem map_fst_resolveNames (names : List String) (s : SearchState) :
    (resolveNames defs depth names s).map (·.1) = names := by
  induction names generalizing s with
  | nil => rfl
  | cons name rest ih =>
    rw [resolveNames, List.map_cons, ih]

/-- The outcome of a name is that of entering it in the state in which the names before it have left
the search. -/
theorem of_mem_resolveNames {names : List String} {s : SearchState} {name : String}
    {r : Except EvalError Float} (h : (name, r) ∈ resolveNames defs depth names s) :
    ∃ before after, names = before ++ name :: after ∧
      r = entry name (enter defs depth name (settled defs depth before s)).1 := by
  induction names generalizing s with
  | nil => cases h
  | cons first rest ih =>
    rw [resolveNames] at h
    rcases List.mem_cons.1 h with heq | hrest
    · obtain ⟨rfl, rfl⟩ := Prod.mk.inj heq
      exact ⟨[], rest, rfl, rfl⟩
    · obtain ⟨before, after, rfl, rfl⟩ := ih hrest
      exact ⟨first :: before, after, rfl, rfl⟩

theorem stack_settled (defs : Definitions) (depth : Nat) (names : List String) :
    (settled defs depth names {}).stack = [] :=
  (settled_extends defs depth names {}).stack_eq

theorem entered_settled (vars : List Variable) (name : String) (defs : Definitions) (depth : Nat)
    (names : List String) : Entered vars name (settled defs depth names {}).stack := by
  rw [stack_settled]
  exact .nil vars name

theorem marked_settled (defs : Definitions) (depth : Nat) (names : List String) :
    (settled defs depth names {}).Marked :=
  SearchState.Marked.of_extends (fun _ => Iff.rfl) (settled_extends defs depth names {})

/-- Right values only are kept, whatever becomes of the names that are entered. -/
theorem sound_settled (hdefs : ∀ name, defs.lookup name = inForce vars name) (names : List String) :
    Sound vars (settled defs depth names {}).cache := by
  induction names using List.reverseRecOn with
  | nil => simp [settled, Sound]
  | append_singleton names name ih =>
    rw [settled_append]
    exact (enter_ends hdefs depth ih (marked_settled defs depth names)
      (entered_settled vars name defs depth names)).sound

/-- Every name is entered as in the plain search, whatever became of the names before it. -/
theorem enter_settled_ends (hdefs : ∀ name, defs.lookup name = inForce vars name)
    (names : List String) (name : String) :
    Ends vars (depth < offPath vars []) (plainSearch vars [] name)
      (enter defs depth name (settled defs depth names {})) := by
  have h := enter_ends hdefs depth (sound_settled hdefs names) (marked_settled defs depth names)
    (entered_settled vars name defs depth names)
  rwa [stack_settled, List.reverse_nil] at h

end Recorded

/-- The recorded outcome of a name is that of the plain search, unless the name is charged with a
chain that is too long. Then it begins a chain as long as the depth, and more names are defined than
the depth allows for. -/
theorem mem_entries {vars : List Variable} {depth : Nat} {name : String}
    {r : Except EvalError Float} (h : (name, r) ∈ (resolveWithin depth vars).entries) :
    r = plainSearch vars [] name ∨ r = .error (.invalidExpression (.depth name)) ∧
      depth < offPath vars [] ∧
        ∃ chain : List String, (name :: chain).IsChain (Refers vars) ∧ chain.length = depth := by
  have hdefs := lookup_ofList vars
  obtain ⟨before, after, -, rfl⟩ := of_mem_resolveNames h
  obtain hplain | ⟨htooDeep, hcut⟩ := (enter_settled_ends hdefs before name).agrees.eq_or_tooDeep
  · rw [hplain]
    cases plainSearch vars [] name with
    | ok x => exact Or.inl rfl
    | error e => exact Or.inl rfl
  · rw [htooDeep]
    exact Or.inr ⟨rfl, hcut, chain_of_tooDeep hdefs htooDeep⟩

theorem entries_eq_of_forall {vars : List Variable} {depth : Nat}
    (h : ∀ p ∈ (resolveWithin depth vars).entries, p.2 = plainSearch vars [] p.1) :
    (resolveWithin depth vars).entries =
      (Definitions.ofList vars).names.map fun name => (name, plainSearch vars [] name) := by
  have hnames : (resolveWithin depth vars).entries.map (·.1) = (Definitions.ofList vars).names :=
    map_fst_resolveNames _ _
  rw [← hnames, List.map_map]
  exact (List.map_id _).symm.trans (List.map_congr_left fun p hp => Prod.ext rfl (h p hp))

theorem entries_eq {vars : List Variable} {depth : Nat} (h : (resolveWithin depth vars).Complete) :
    (resolveWithin depth vars).entries =
      (Definitions.ofList vars).names.map fun name => (name, plainSearch vars [] name) := by
  refine entries_eq_of_forall fun p hp => ?_
  rcases mem_entries hp with hplain | ⟨htooDeep, -⟩
  · exact hplain
  · exact absurd htooDeep (h p hp)

/-- No chain is too long where no more names are defined than the depth allows for. -/
theorem entries_eq_of_offPath_le {vars : List Variable} {depth : Nat}
    (h : offPath vars [] ≤ depth) : (resolveWithin depth vars).entries =
      (Definitions.ofList vars).names.map fun name => (name, plainSearch vars [] name) := by
  refine entries_eq_of_forall fun p hp => ?_
  rcases mem_entries hp with hplain | ⟨-, hcut, -⟩
  · exact hplain
  · omega

/-! ### Values and errors by name -/

theorem lookup_filterMap {α : Type} (g : String → Option α) (names : List String) (name : String) :
    (names.filterMap fun n => (g n).map (n, ·)).lookup name =
      if name ∈ names then g name else none := by
  induction names with
  | nil => rfl
  | cons first rest ih =>
    by_cases hname : name = first
    · subst hname
      cases hg : g name with
      | none => simpa [hg] using ih
      | some a => simp [hg]
    · cases hg : g first with
      | none => simpa [hg, hname] using ih
      | some a => simpa [hg, hname, lookup_cons_of_ne hname] using ih

/-- The message of a failed outcome. -/
def message? (r : Except EvalError Float) : Option String :=
  match r with
  | .error e => some e.message
  | .ok _ => none

section ByName

variable {r : Resolution} {names : List String} {f : String → Except EvalError Float}

theorem lookup_entries (h : r.entries = names.map fun n => (n, f n)) (name : String) :
    r.entries.lookup name = if name ∈ names then some (f name) else none := by
  rw [h]
  split
  · rename_i hname
    exact List.lookup_graph f hname
  · rename_i hname
    simpa [List.lookup_eq_none_iff] using fun n hn => ne_of_mem_of_not_mem hn hname |>.symm

theorem lookup_values (h : r.entries = names.map fun n => (n, f n)) (name : String) :
    r.values.lookup name = if name ∈ names then (f name).toOption else none := by
  rw [Resolution.values, h, List.filterMap_map]
  exact lookup_filterMap (fun n => (f n).toOption) names name

theorem lookup_errors (h : r.entries = names.map fun n => (n, f n)) (name : String) :
    r.errors.lookup name = if name ∈ names then message? (f name) else none := by
  have herrors : r.errors = names.filterMap fun n => (message? (f n)).map (n, ·) := by
    rw [Resolution.errors, Resolution.failures, h, List.filterMap_map, List.map_filterMap]
    refine List.filterMap_congr fun n _ => ?_
    simp only [Function.comp, message?]
    cases f n <;> rfl
  rw [herrors]
  exact lookup_filterMap (fun n => message? (f n)) names name

end ByName

/-- The entry of a defined name whose search fails. -/
theorem lookup_of_plainSearch_error {vars : List Variable} {depth : Nat}
    (h : (resolveWithin depth vars).Complete) {name : String} {e : EvalError}
    (hdef : (inForce vars name).isSome = true) (he : plainSearch vars [] name = .error e) :
    (resolveWithin depth vars).entries.lookup name = some (.error e) ∧
      (resolveWithin depth vars).errors.lookup name = some e.message := by
  have hname := mem_names_iff_inForce.2 hdef
  rw [lookup_entries (entries_eq h), lookup_errors (entries_eq h), if_pos hname, if_pos hname, he]
  exact ⟨rfl, rfl⟩

/-! ### The plain search and the values that the definitions give -/

section Main

variable {vars : List Variable} {depth : Nat}

/-- **The entry of a name is the outcome of the plain search for it**, although one search goes over
all names and keeps what it has found: its value, or the message of its error. -/
theorem entries_lookup (h : (resolveWithin depth vars).Complete) {name : String}
    (hname : name ∈ vars.map (·.name)) :
    (resolveWithin depth vars).entries.lookup name = some (plainSearch vars [] name) ∧
      (∀ x, (resolveWithin depth vars).values.lookup name = some x ↔
        plainSearch vars [] name = .ok x) ∧
      ∀ m, (resolveWithin depth vars).errors.lookup name = some m ↔
        ∃ e, plainSearch vars [] name = .error e ∧ e.message = m := by
  have hentries := entries_eq h
  have hmem : name ∈ (Definitions.ofList vars).names := mem_names_ofList.2 hname
  refine ⟨?_, fun x => ?_, fun m => ?_⟩
  · rw [hentries]
    exact List.lookup_graph _ hmem
  · rw [lookup_values hentries, if_pos hmem]
    cases plainSearch vars [] name <;> simp [Except.toOption]
  · rw [lookup_errors hentries, if_pos hmem]
    cases plainSearch vars [] name <;> simp [message?]

/-- A list with a name that is defined twice, a cycle, two dynamic variables that share a constant,
a kind that is stated as a text and one that is no kind. -/
def tangled : List Variable :=
  [⟨"D", .known .constant, "X"⟩, ⟨"A", .known .constant, " 2 "⟩, ⟨"B", .known .dynamic, "A + C"⟩,
    ⟨"C", .known .dynamic, "B * A"⟩, ⟨"D", .known .dynamic, "A - A / E"⟩,
    ⟨"E", .text " dynamic", "A + A"⟩, ⟨"F", .text "formula", "1"⟩]

/-- A member of a cycle that is met again from the other side. -/
theorem entries_lookup_tangled : (resolve tangled).Complete ∧ "C" ∈ tangled.map (·.name) ∧
    (resolve tangled).entries.lookup "C" = some (plainSearch tangled [] "C") ∧
      plainSearch tangled [] "C" = .error (.circularDependency "C" ["C", "B", "C"]) := by
  have hcomplete : (resolve tangled).Complete := by decide +kernel
  have hname : "C" ∈ tangled.map (·.name) := by decide
  have h := (entries_lookup hcomplete hname).1
  have hrun : (resolve tangled).entries.lookup "C" =
      some (.error (.circularDependency "C" ["C", "B", "C"])) := by decide +kernel
  exact ⟨hcomplete, hname, h, Option.some.inj (h.symm.trans hrun)⟩

/-- **The values are exactly those that the definitions give**, and no name from which a cycle of
references is reached has one. -/
theorem lookup_values_iff_hasValue (h : (resolveWithin depth vars).Complete) :
    (∀ name x, (resolveWithin depth vars).values.lookup name = some x ↔ HasValue vars name x) ∧
      ∀ name other, ReflTransGen (Refers vars) name other → TransGen (Refers vars) other other →
        (resolveWithin depth vars).values.lookup name = none := by
  have hvalues : ∀ name x, (resolveWithin depth vars).values.lookup name = some x ↔
      HasValue vars name x := by
    intro name x
    rw [lookup_values (entries_eq h)]
    constructor
    · intro hx
      split at hx
      · cases hplain : plainSearch vars [] name with
        | error e => simp [hplain, Except.toOption] at hx
        | ok y =>
          have : y = x := by simpa [hplain, Except.toOption] using hx
          exact this ▸ hasValue_of_plainSearch [] hplain
      · cases hx
    · intro hx
      have hmem := mem_names_ofList.2 (inForce_isSome.1 hx.isSome_inForce)
      rw [if_pos hmem, plainSearch_of_hasValue hx (by simp)]
      rfl
  refine ⟨hvalues, fun name other hreach hcycle => ?_⟩
  cases hx : (resolveWithin depth vars).values.lookup name with
  | none => rfl
  | some x => exact absurd hcycle (((hvalues name x).1 hx).not_transGen hreach)

/-- A shared constant, the last of two definitions, and a cycle. -/
theorem lookup_values_iff_hasValue_tangled : (resolve tangled).Complete ∧
    HasValue tangled "D" 1.5 ∧ ∀ x, ¬ HasValue tangled "B" x := by
  have hcomplete : (resolve tangled).Complete := by decide +kernel
  have h := (lookup_values_iff_hasValue hcomplete).1
  refine ⟨hcomplete, (h "D" 1.5).1 (by decide +kernel), fun x hx => ?_⟩
  have hnone : (resolve tangled).values.lookup "B" = none := by decide +kernel
  cases hnone.symm.trans ((h "B" x).2 hx)

end Main

end FormulaBook
