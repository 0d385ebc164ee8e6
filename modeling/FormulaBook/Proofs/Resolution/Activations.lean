import FormulaBook.Proofs.Resolution.Entries

/-!
# The calls of a resolution

The calls by which a list is resolved, each with the names that are being computed around it, and
the states between them. The marks and the stack always tell these names, each of them refers to the
next one, and every call leaves them as it found them, whatever becomes of it.

* `Activation`: a name is entered in the course of a resolution;
* `Activation.stack_eq`, `Activation.entered`, `Activation.length_add_depth`: what holds of every
  call;
* `Reachable`: the states of a search between two of its steps;
* `Reachable.restores`: the marks and the stack in every such state, and what every call restores.
-/

namespace FormulaBook

/-- In the course of a resolution `name` is entered in the state `s`, while the names `opened` are
being computed, innermost first, and `depth` more may be computed inside them. -/
inductive Activation (defs : Definitions) (limit : Nat) :
    List String → Nat → String → SearchState → Prop
  | outer {before after : List String} {name : String} (h : defs.names = before ++ name :: after) :
      Activation defs limit [] limit name (settled defs limit before {})
  | inner {opened : List String} {depth : Nat} {user other : String} {s s' : SearchState}
      {v : Variable} {kind : VariableKind} (h : Activation defs limit opened (depth + 1) user s)
      (hopens : Opens defs s user v kind)
      (henters : Enters (enter defs depth) defs v (s.push user) kind other s') :
      Activation defs limit (user :: opened) depth other s'

/-- A name at the beginning of the expression is entered in the very state from which the variable
is computed. -/
theorem Enters.of_head? {enterName : String → Search Float} {defs : Definitions} {v : Variable}
    {s : SearchState} {other : String}
    (hhead : ((tokenize v.expression).toOption.bind (·.head?)).map (fun t => (t.kind, t.text)) =
      some (.identifier, other)) (hdef : (defs.lookup other).isSome = true) :
    Enters enterName defs v s .dynamic other s := by
  obtain ⟨t, ht, hname⟩ := Option.map_eq_some_iff.1 hhead
  obtain ⟨tokens, htokens, hfirst⟩ := Option.bind_eq_some_iff.1 ht
  obtain ⟨hk, rfl⟩ := Prod.mk.inj hname
  obtain ⟨rest, rfl⟩ := List.head?_eq_some_iff.1 hfirst
  exact .dynamic (mem_toOption.1 htokens) (.here hk hdef)

namespace Activation

section Definitions

variable {defs : Definitions} {limit depth : Nat} {opened : List String} {name : String}
  {s : SearchState}

/-- The stack and the marks tell which names are being computed around a call. -/
theorem stack_eq (h : Activation defs limit opened depth name s) :
    s.stack = opened ∧ s.inProgress = opened := by
  induction h with
  | @outer before _ _ h =>
    have hextends := settled_extends defs limit before {}
    exact ⟨hextends.stack_eq, hextends.inProgress_eq⟩
  | @inner opened depth user other s s' v kind h hopens henters ih =>
    have hextends := henters.extends (enter_extends defs depth)
    obtain ⟨hstack, hmarks⟩ := ih
    exact ⟨hextends.stack_eq.trans (congrArg (user :: ·) hstack),
      hextends.inProgress_eq.trans <| (SearchState.push_inProgress hopens.admits).trans
        (congrArg (user :: ·) hmarks)⟩

/-- The names that are being computed and those that may be computed inside them make up the
limit. -/
theorem length_add_depth (h : Activation defs limit opened depth name s) :
    opened.length + depth = limit := by
  induction h with
  | outer h => simp
  | inner h hopens henters ih =>
    rw [List.length_cons]
    omega

theorem isSome_lookup (h : Activation defs limit opened depth name s) :
    (defs.lookup name).isSome = true := by
  cases h with
  | outer h =>
    have hname : name ∈ defs.names := by simp [h]
    exact FormulaBook.isSome_lookup.2 hname
  | inner h hopens henters => exact henters.isSome_lookup

/-- A name that passes the checks is not yet among those that are being computed. -/
theorem not_mem_opened (h : Activation defs limit opened depth name s) (hname : s.Admits name) :
    name ∉ opened := by
  rw [← h.stack_eq.2]
  exact hname.not_mem

theorem marked (h : Activation defs limit opened depth name s) : s.Marked := fun k => by
  rw [h.stack_eq.1, h.stack_eq.2]

end Definitions

/-- Each of the names that are being computed refers to the next one, and the innermost to the name
that is entered. -/
theorem entered {vars : List Variable} {limit depth : Nat} {opened : List String} {name : String}
    {s : SearchState} (h : Activation (.ofList vars) limit opened depth name s) :
    Entered vars name opened := by
  induction h with
  | outer h => exact .nil vars _
  | inner h hopens henters ih =>
    have hdef := (lookup_ofList vars _).symm.trans hopens.lookup_eq
    exact ih.push (h.not_mem_opened hopens.admits) (henters.refers hdef hopens.parse_eq)

end Activation

/-- The states of a search between two steps: between two names that are entered from outside; when
a name is entered and when that ends; and when the computation of a name begins, when it ends, and
when its value has been kept. -/
inductive Reachable (defs : Definitions) (limit : Nat) : SearchState → Prop
  | outside {before after : List String} (h : defs.names = before ++ after) :
      Reachable defs limit (settled defs limit before {})
  | entry {opened : List String} {depth : Nat} {name : String} {s : SearchState}
      (h : Activation defs limit opened depth name s) : Reachable defs limit s
  | exit {opened : List String} {depth : Nat} {name : String} {s : SearchState}
      (h : Activation defs limit opened depth name s) :
      Reachable defs limit (enter defs depth name s).2
  | begun {opened : List String} {depth : Nat} {name : String} {s : SearchState} {v : Variable}
      {kind : VariableKind} (h : Activation defs limit opened (depth + 1) name s)
      (hopens : Opens defs s name v kind) : Reachable defs limit (s.push name)
  | computed {opened : List String} {depth : Nat} {name : String} {s : SearchState} {v : Variable}
      {kind : VariableKind} (h : Activation defs limit opened (depth + 1) name s)
      (hopens : Opens defs s name v kind) :
      Reachable defs limit (compute (enter defs depth) defs v kind (s.push name)).2
  | stored {opened : List String} {depth : Nat} {name : String} {s : SearchState} {v : Variable}
      {kind : VariableKind} {x : Float} (h : Activation defs limit opened (depth + 1) name s)
      (hopens : Opens defs s name v kind)
      (hx : (compute (enter defs depth) defs v kind (s.push name)).1 = .ok x) :
      Reachable defs limit ((compute (enter defs depth) defs v kind (s.push name)).2.store name x)

/-- The names that are marked are those on the stack, none of them is there twice, and each refers
to the one above it. -/
structure SearchState.Consistent (vars : List Variable) (s : SearchState) : Prop where
  marked : s.Marked
  nodup : s.stack.Nodup
  chain : s.stack.IsChain fun a b => Refers vars b a

namespace SearchState.Consistent

variable {vars : List Variable} {s s' : SearchState}

theorem of_eq (h : s.Consistent vars) (hmarks : s'.inProgress = s.inProgress)
    (hstack : s'.stack = s.stack) : s'.Consistent vars where
  marked k := by
    rw [hmarks, hstack]
    exact h.marked k
  nodup := hstack ▸ h.nodup
  chain := hstack ▸ h.chain

theorem of_extends (h : s.Consistent vars) (hs' : s.Extends s') : s'.Consistent vars :=
  h.of_eq hs'.inProgress_eq hs'.stack_eq

end SearchState.Consistent

section Consistent

variable {vars : List Variable} {limit depth : Nat} {opened : List String} {name : String}
  {s : SearchState} {v : Variable} {kind : VariableKind}

theorem Activation.consistent (h : Activation (.ofList vars) limit opened depth name s) :
    s.Consistent vars where
  marked := h.marked
  nodup := h.stack_eq.1 ▸ h.entered.nodup
  chain := h.stack_eq.1 ▸ h.entered.chain.tail

theorem Activation.consistent_push (h : Activation (.ofList vars) limit opened depth name s)
    (hname : s.Admits name) : (s.push name).Consistent vars where
  marked := h.marked.push name
  nodup := List.nodup_cons.2 ⟨mt (h.marked name).2 hname.not_mem, h.consistent.nodup⟩
  chain := by
    rw [SearchState.push, h.stack_eq.1]
    exact h.entered.chain

theorem Activation.consistent_compute
    (h : Activation (.ofList vars) limit opened (depth + 1) name s)
    (hopens : Opens (.ofList vars) s name v kind) :
    (compute (enter (.ofList vars) depth) (.ofList vars) v kind (s.push name)).2.Consistent vars :=
  (h.consistent_push hopens.admits).of_extends (compute_extends (enter_extends _ depth) v kind _)

/-- **Every exit restores the marks and the stack.** In each state that a search reaches, the names
that are marked are those on the stack, each of which refers to the next one; so the place of a
marked name is always found. Whatever name is entered there, at whatever depth and with whatever
outcome, it only adds values, of names that were neither kept nor marked. -/
theorem Reachable.restores (h : Reachable (.ofList vars) limit s) :
    s.stack.Nodup ∧ (∀ k, k ∈ s.inProgress ↔ k ∈ s.stack) ∧
      s.stack.reverse.IsChain (Refers vars) ∧
      (∀ k ∈ s.inProgress, (s.place? k).isSome = true) ∧
      ∀ depth name, s.Extends (enter (.ofList vars) depth name s).2 := by
  have hconsistent : s.Consistent vars := by
    cases h with
    | outside h =>
      exact SearchState.Consistent.of_extends ⟨fun _ => Iff.rfl, List.nodup_nil, List.IsChain.nil⟩
        (settled_extends _ _ _ {})
    | entry h => exact h.consistent
    | exit h => exact h.consistent.of_extends (enter_extends _ _ _ _)
    | begun h hopens => exact h.consistent_push hopens.admits
    | computed h hopens => exact h.consistent_compute hopens
    | stored h hopens hx => exact (h.consistent_compute hopens).of_eq rfl rfl
  refine ⟨hconsistent.nodup, hconsistent.marked, ?_, fun k hk => ?_,
    fun depth name => enter_extends _ depth name s⟩
  · exact List.isChain_reverse.2 hconsistent.chain
  · have hplace : k ∈ s.stack.reverse := List.mem_reverse.2 ((hconsistent.marked k).1 hk)
    rw [SearchState.place?, List.isSome_idxOf?]
    exact hplace

end Consistent

/-- The state in which `B` is entered for `C`, after it has failed by itself. -/
def insideC : SearchState := (settled (.ofList tangled) chainLimit ["D", "A", "B"] {}).push "C"

theorem activation_insideC : Activation (.ofList tangled) chainLimit ["C"] 489 "B" insideC := by
  have hnames : (Definitions.ofList tangled).names = ["D", "A", "B"] ++ "C" :: ["E", "F"] := by
    decide
  have hC : Opens (.ofList tangled) (settled (.ofList tangled) chainLimit ["D", "A", "B"] {}) "C"
      ⟨"C", .known .dynamic, "B * A"⟩ .dynamic := ⟨by decide +kernel, by decide, rfl⟩
  exact (Activation.outer hnames).inner hC (.of_head? (by decide +kernel) (by decide))

theorem opens_insideC : Opens (.ofList tangled) insideC "B" ⟨"B", .known .dynamic, "A + C"⟩
    .dynamic :=
  ⟨by decide +kernel, by decide, rfl⟩

/-- `B` is being computed for `C`, which is found at the bottom of the stack when it is entered
again. -/
theorem restores_tangled : Reachable (.ofList tangled) chainLimit (insideC.push "B") ∧
    (insideC.push "B").inProgress = ["B", "C"] ∧ (insideC.push "B").place? "C" = some 0 ∧
    (enter (.ofList tangled) 488 "C" (insideC.push "B")).1 =
      .error (.error (.circularDependency "C" ["C", "B", "C"])) ∧
    (enter (.ofList tangled) 488 "C" (insideC.push "B")).2.stack = ["B", "C"] := by
  have hreachable : Reachable (.ofList tangled) chainLimit (insideC.push "B") :=
    .begun activation_insideC opens_insideC
  obtain ⟨-, -, -, -, hextends⟩ := hreachable.restores
  refine ⟨hreachable, by decide +kernel, by decide +kernel, by decide +kernel, ?_⟩
  exact (hextends 488 "C").stack_eq.trans (by decide +kernel)

end FormulaBook
