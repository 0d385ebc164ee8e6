import FormulaBook.Proofs.Resolution.Failures
import FormulaBook.Proofs.Resolution.Locality

/-!
# Cycles

A reported cycle is a cycle: its path leads from a name through the expressions of dynamic variables
back to the name, and meets no other name twice. And no cycle goes unnoticed: a name from which one
is reached has no value.

* `CycleAt`: a path of references from a name back to it;
* `cycleAt_dropWhile`: the part of a search path from a name that is entered again;
* `cycleAt_of_plainSearch`: what the plain search reports is a cycle;
* `dependsOn_iff_refers`: listed names and references, where all kinds are known;
* `cycleAt_of_entry`, `exists_error_of_cycle`: the entries of names that reach a cycle;
* `circularDependency_sound_complete`: the cycles among the entries of a list.
-/

namespace FormulaBook

open Relation

/-- A path from `name` back to `name`, along which each name refers to the next one and none but the
two ends are the same. -/
structure CycleAt (vars : List Variable) (name : String) (path : List String) : Prop where
  ends : ∃ inner, path = name :: (inner ++ [name])
  nodup : path.dropLast.Nodup
  chain : path.IsChain (Refers vars)

/-- The end of a search path, from a name that is entered again, is a cycle. -/
theorem cycleAt_dropWhile {vars : List Variable} {path : List String} {name : String}
    (hname : name ∈ path) (hnodup : path.Nodup) (hchain : (path ++ [name]).IsChain (Refers vars)) :
    CycleAt vars name (path.dropWhile (· != name) ++ [name]) := by
  obtain ⟨outer, inner, rfl⟩ := List.append_of_mem hname
  obtain ⟨-, hinner, hdisjoint⟩ := List.nodup_append.1 hnodup
  have houter : ∀ k ∈ outer, (k != name) = true := fun k hk =>
    bne_iff_ne.2 (hdisjoint k hk name List.mem_cons_self)
  have hdrop : (outer ++ name :: inner).dropWhile (· != name) = name :: inner := by
    rw [List.dropWhile_append_of_pos houter, List.dropWhile_cons_of_neg (by simp)]
  rw [hdrop]
  refine ⟨⟨inner, rfl⟩, by rwa [List.dropLast_concat], ?_⟩
  rw [List.append_assoc] at hchain
  exact hchain.right_of_append

/-- A cycle that the plain search reports is a cycle, and it is reached from the name. -/
theorem cycleAt_of_plainSearch {vars : List Variable} {path : List String} {name c : String}
    {cycle : List String} (hdef : (inForce vars name).isSome = true) (hnodup : path.Nodup)
    (hchain : (path ++ [name]).IsChain (Refers vars))
    (h : plainSearch vars path name = .error (.circularDependency c cycle)) :
    CycleAt vars c cycle ∧ ReflTransGen (Refers vars) name c := by
  obtain ⟨v, hv⟩ := Option.isSome_iff_exists.1 hdef
  obtain ⟨hpath, heq⟩ | ⟨hpath, hown | ⟨other, hrefers, hsome, he⟩⟩ := of_plainSearch_error hdef h
  · cases heq
    exact ⟨cycleAt_dropWhile hpath hnodup hchain, .refl⟩
  · exact absurd rfl hown.ne_circularDependency
  · have hnodup' : (path ++ [name]).Nodup := by
      simpa [List.nodup_append] using ⟨hnodup, fun k hk heq => hpath (heq ▸ hk)⟩
    have hchain' : (path ++ [name] ++ [other]).IsChain (Refers vars) :=
      hchain.append (List.isChain_singleton other) (by simpa using hrefers)
    -- The induction is on the names that are not on the path yet.
    have := offPath_lt hv hpath
    obtain ⟨hcycle, hreach⟩ := cycleAt_of_plainSearch hsome hnodup' hchain' he
    exact ⟨hcycle, .head hrefers hreach⟩
termination_by offPath vars path

/-! ### Known kinds -/

section Known

variable {vars : List Variable} (hkinds : ∀ v ∈ vars, ∃ kind, v.kind = .known kind)
include hkinds

/-- Where all kinds are known, a variable refers to what its definition lists. -/
theorem dependsOn_iff_refers {a b : String} : DependsOn vars a b ↔ Refers vars a b := by
  refine ⟨fun h => ?_, Refers.dependsOn⟩
  rw [DependsOn, dependenciesOf] at h
  split at h
  · rename_i v hdef
    obtain ⟨hdynamic, tokens, htokens, hname⟩ := mem_dependencies.1 h
    obtain ⟨kind, hkind⟩ := hkinds v (mem_of_inForce hdef)
    cases kind with
    | constant => simp [Variable.isConstant, hkind, StatedKind.name] at hdynamic
    | dynamic => exact ⟨v, tokens, hdef, by rw [hkind]; rfl, htokens, hname⟩
  · cases h

theorem Refers.known {a b : String} (h : Refers vars a b) :
    ∃ v, inForce vars a = some v ∧ v.kind = .known .dynamic := by
  obtain ⟨v, tokens, hdef, hkind, -⟩ := h
  obtain ⟨kind, hknown⟩ := hkinds v (mem_of_inForce hdef)
  rw [hknown] at hkind
  cases hkind
  exact ⟨v, hdef, hknown⟩

/-- Every name on a cycle is a dynamic variable. -/
theorem CycleAt.known {name : String} {path : List String} (h : CycleAt vars name path) :
    ∀ k ∈ path, ∃ v, inForce vars k = some v ∧ v.kind = .known .dynamic := by
  obtain ⟨inner, rfl⟩ := h.ends
  have hmember : ∀ k ∈ name :: inner, ∃ v, inForce vars k = some v ∧ v.kind = .known .dynamic := by
    intro k hk
    obtain ⟨before, after, hsplit⟩ := List.append_of_mem hk
    have hchain := h.chain
    rw [← List.cons_append, hsplit, List.append_assoc] at hchain
    -- Some name follows `k` on the path, if only the last one.
    cases after with
    | nil => exact (List.isChain_cons_cons.1 hchain.right_of_append).1.known hkinds
    | cons next after => exact (List.isChain_cons_cons.1 hchain.right_of_append).1.known hkinds
  intro k hk
  rw [← List.cons_append, List.mem_append, List.mem_singleton] at hk
  obtain hk | rfl := hk
  · exact hmember k hk
  · exact hmember k List.mem_cons_self

end Known

/-! ### The entries of a list -/

section Recorded

variable {vars : List Variable} {depth : Nat} (hcomplete : (resolveWithin depth vars).Complete)
include hcomplete

/-- A cycle in an entry is a cycle, and it is reached from the name. -/
theorem cycleAt_of_entry {name c : String} {path : List String}
    (h : (resolveWithin depth vars).entries.lookup name =
      some (.error (.circularDependency c path))) :
    CycleAt vars c path ∧ ReflTransGen (Refers vars) name c := by
  rw [lookup_entries (entries_eq hcomplete)] at h
  split at h
  · rename_i hname
    exact cycleAt_of_plainSearch (mem_names_iff_inForce.1 hname) List.nodup_nil
      (List.isChain_singleton name) (Option.some.inj h)
  · cases h

/-- A name from which a cycle is reached has an error. -/
theorem exists_error_of_cycle {name other : String} (hreach : ReflTransGen (Refers vars) name other)
    (hcycle : TransGen (Refers vars) other other) :
    ∃ m, (resolveWithin depth vars).errors.lookup name = some m := by
  -- The name refers to something, if only because it is on the cycle, so it is defined.
  have hdef : (inForce vars name).isSome = true := by
    obtain ⟨k, ⟨v, tokens, hdef, -⟩, -⟩ := TransGen.head'_iff.1 (hcycle.trans_right hreach)
    rw [hdef]
    rfl
  rw [lookup_errors (entries_eq hcomplete), if_pos (mem_names_iff_inForce.2 hdef)]
  cases hplain : plainSearch vars [] name with
  | error e => exact ⟨e.message, rfl⟩
  | ok x => exact absurd hcycle ((hasValue_of_plainSearch [] hplain).not_transGen hreach)

end Recorded

/-- **Reported cycles are cycles, and all cycles are reported**, in a list of definitions whose
kinds are known. The path of a circular dependency leads from a name that the entry's name reaches,
through dynamic variables that refer to each other, back to that name. A name that reaches a cycle
has an error. -/
theorem circularDependency_sound_complete {vars : List Variable} {depth : Nat}
    (hcomplete : (resolveWithin depth vars).Complete)
    (hkinds : ∀ v ∈ vars, ∃ kind, v.kind = .known kind) :
    (∀ name c path, (resolveWithin depth vars).entries.lookup name =
        some (.error (.circularDependency c path)) →
      CycleAt vars c path ∧
        (∀ k ∈ path, ∃ v, inForce vars k = some v ∧ v.kind = .known .dynamic) ∧
        ReflTransGen (Refers vars) name c) ∧
    ∀ name other, ReflTransGen (DependsOn vars) name other → TransGen (DependsOn vars) other other →
      ∃ m, (resolveWithin depth vars).errors.lookup name = some m := by
  refine ⟨fun name c path h => ?_, fun name other hreach hcycle => ?_⟩
  · obtain ⟨hcycle, hreach⟩ := cycleAt_of_entry hcomplete h
    exact ⟨hcycle, hcycle.known hkinds, hreach⟩
  · have hsame : DependsOn vars = Refers vars :=
      funext fun a => funext fun b => propext (dependsOn_iff_refers hkinds)
    rw [hsame] at hreach hcycle
    exact exists_error_of_cycle hcomplete hreach hcycle

/-- A list in which a cycle of two variables is reached from a third one. -/
def ring : List Variable :=
  [⟨"TOP", .known .dynamic, "BASE + LEFT"⟩, ⟨"BASE", .known .constant, "2"⟩,
    ⟨"LEFT", .known .dynamic, "RIGHT * BASE"⟩, ⟨"RIGHT", .known .dynamic, "BASE - LEFT"⟩]

/-- The cycle that is reported from outside, and the report of its other member. -/
theorem circularDependency_sound_complete_ring : (resolve ring).Complete ∧
    (∀ v ∈ ring, ∃ kind, v.kind = .known kind) ∧
    (resolve ring).entries.lookup "TOP" =
      some (.error (.circularDependency "LEFT" ["LEFT", "RIGHT", "LEFT"])) ∧
    CycleAt ring "LEFT" ["LEFT", "RIGHT", "LEFT"] ∧ ReflTransGen (Refers ring) "TOP" "LEFT" ∧
    TransGen (DependsOn ring) "RIGHT" "RIGHT" ∧
    ∃ m, (resolve ring).errors.lookup "RIGHT" = some m := by
  have hcomplete : (resolve ring).Complete := by decide +kernel
  have hkinds : ∀ v ∈ ring, ∃ kind, v.kind = .known kind := by simp [ring]
  have hentry : (resolve ring).entries.lookup "TOP" =
      some (.error (.circularDependency "LEFT" ["LEFT", "RIGHT", "LEFT"])) := by decide +kernel
  have hforth : DependsOn ring "RIGHT" "LEFT" := by decide +kernel
  have hback : DependsOn ring "LEFT" "RIGHT" := by decide +kernel
  have hcycle : TransGen (DependsOn ring) "RIGHT" "RIGHT" := .tail (.single hforth) hback
  obtain ⟨hsound, hall⟩ := circularDependency_sound_complete hcomplete hkinds
  obtain ⟨hpath, -, hreach⟩ := hsound "TOP" "LEFT" _ hentry
  exact ⟨hcomplete, hkinds, hentry, hpath, hreach, hcycle, hall "RIGHT" "RIGHT" .refl hcycle⟩

end FormulaBook
