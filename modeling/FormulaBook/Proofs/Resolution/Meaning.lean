import FormulaBook.Proofs.Lookup
import FormulaBook.Resolution.Basic
import Mathlib.Logic.Relation

/-!
# What definitions say

The value that a list of definitions gives to a name, said without a search: a constant has the
value of its numeral, and a dynamic variable has the value of its expression once every name in it
stands for its own value. Nothing else has a value, so a name that depends on itself has none.

* `inForce`: the definition of a name that counts, with `inForce_map` and `lookup_ofList`;
* `Refers`: a dynamic variable refers to the names in its expression;
* `HasValue`: the least relation that gives constants and dynamic variables their values;
* `HasValue.unique`: a name has one value at most;
* `HasValue.not_transGen`: no name on a cycle of references has a value, nor does any name from
  which such a cycle is reached.
-/

namespace FormulaBook

open Relation Text

/-! ### Definitions in force -/

/-- The definition of a name that counts: the last one. -/
def inForce (vars : List Variable) (name : String) : Option Variable :=
  vars.reverse.find? (·.name == name)

theorem inForce_isSome {vars : List Variable} {name : String} :
    (inForce vars name).isSome = true ↔ name ∈ vars.map (·.name) := by
  simp [inForce, List.find?_isSome]

theorem mem_of_inForce {vars : List Variable} {name : String} {v : Variable}
    (h : inForce vars name = some v) : v ∈ vars :=
  List.mem_reverse.1 (List.mem_of_find?_eq_some h)

theorem name_of_inForce {vars : List Variable} {name : String} {v : Variable}
    (h : inForce vars name = some v) : v.name = name := by
  simpa using List.find?_some h

/-- A change to the definitions that keeps their names changes the definition that counts. -/
theorem inForce_map {f : Variable → Variable} (h : ∀ v, (f v).name = v.name) (vars : List Variable)
    (name : String) : inForce (vars.map f) name = (inForce vars name).map f := by
  rw [inForce, inForce, ← List.map_reverse, List.find?_map]
  congr 2
  funext v
  exact congrArg (· == name) (h v)

theorem lookup_define (defs : Definitions) (v : Variable) (name : String) :
    (defs.define v).lookup name = if name = v.name then some v else defs.lookup name := by
  induction defs with
  | nil =>
    by_cases h : name = v.name
    · simp [Definitions.define, h]
    · simp [Definitions.define, h]
  | cons d rest ih =>
    obtain ⟨other, w⟩ := d
    simp only [Definitions.define, beq_iff_eq]
    by_cases hv : other = v.name
    · subst hv
      by_cases h : name = v.name
      · simp [h]
      · simp [h, lookup_cons_of_ne h]
    · by_cases h : name = other
      · subst h
        simp [hv]
      · simp [hv, lookup_cons_of_ne h, ih]

/-- The definitions of a list hold the last one of each name. -/
theorem lookup_ofList (vars : List Variable) (name : String) :
    (Definitions.ofList vars).lookup name = inForce vars name := by
  -- The induction is on the list, after any earlier definitions.
  have general : ∀ defs : Definitions, (vars.foldl Definitions.define defs).lookup name =
      (inForce vars name).or (defs.lookup name) := by
    induction vars with
    | nil => intro defs; rfl
    | cons v vars ih =>
      intro defs
      rw [List.foldl_cons, ih, lookup_define]
      simp only [inForce, List.reverse_cons, List.find?_append, List.find?_singleton]
      cases List.find? (·.name == name) vars.reverse with
      | some w => rfl
      | none =>
        by_cases h : name = v.name
        · simp [h]
        · simp [h, Ne.symm h]
  rw [Definitions.ofList, general []]
  simp

theorem mem_names {defs : Definitions} {name : String} :
    name ∈ defs.names ↔ (defs.lookup name).isSome = true := by
  rw [Definitions.names, List.mem_map, List.lookup_isSome_iff]
  constructor
  · rintro ⟨d, hd, rfl⟩
    exact ⟨d, hd, beq_self_eq_true d.1⟩
  · rintro ⟨d, hd, h⟩
    exact ⟨d, hd, (beq_iff_eq.1 h).symm⟩

theorem mem_names_iff_inForce {vars : List Variable} {name : String} :
    name ∈ (Definitions.ofList vars).names ↔ (inForce vars name).isSome = true := by
  rw [mem_names, lookup_ofList]

theorem mem_names_ofList {vars : List Variable} {name : String} :
    name ∈ (Definitions.ofList vars).names ↔ name ∈ vars.map (·.name) := by
  rw [mem_names_iff_inForce, inForce_isSome]

/-! ### References and values -/

/-- The dynamic variable `a` has `b` in its expression. -/
def Refers (vars : List Variable) (a b : String) : Prop :=
  ∃ v tokens, inForce vars a = some v ∧ v.kind.parse = .ok .dynamic ∧
    tokenize v.expression = .ok tokens ∧ ∃ t ∈ tokens, t.kind = .identifier ∧ t.text = b

/-- A token with a name replaced by the number that `val` gives to it. -/
def Token.valued (val : String → Float) (t : Token) : Token :=
  if t.kind = .identifier then .ofValue (val t.text) t.position else t

/-- The values that definitions give to names. -/
inductive HasValue (vars : List Variable) : String → Float → Prop
  /-- A constant has the finite value that its expression, without blanks around it, reads as. -/
  | constant {name : String} {v : Variable} {x : Float} (hdef : inForce vars name = some v)
      (hkind : v.kind.parse = .ok .constant)
      (hread : Decimal.toFloat? (trim v.expression) = some x) (hfinite : x.isFinite = true) :
      HasValue vars name x
  /-- A dynamic variable without placeholders has the value of its expression, where each name
  stands for a value of its own. -/
  | dynamic {name : String} {v : Variable} {tokens : List Token} {val : String → Float} {x : Float}
      (hdef : inForce vars name = some v) (hkind : v.kind.parse = .ok .dynamic)
      (htokens : tokenize v.expression = .ok tokens)
      (hplain : ∀ t ∈ tokens, t.kind ≠ .placeholder)
      (hnames : ∀ t ∈ tokens, t.kind = .identifier → HasValue vars t.text (val t.text))
      (heval : evaluateTokens (tokens.map (·.valued val)) = .ok x) :
      HasValue vars name x

namespace HasValue

variable {vars : List Variable} {name : String} {x y : Float}

theorem isSome_inForce (h : HasValue vars name x) : (inForce vars name).isSome = true := by
  cases h with
  | constant hdef => rw [hdef]; rfl
  | dynamic hdef => rw [hdef]; rfl

/-- A name has one value at most. -/
theorem unique (h : HasValue vars name x) (h' : HasValue vars name y) : x = y := by
  induction h generalizing y with
  | constant hdef hkind hread _ =>
    cases h' with
    | constant hdef' _ hread' _ =>
      cases hdef.symm.trans hdef'
      exact Option.some.inj (hread.symm.trans hread')
    | dynamic hdef' hkind' =>
      cases hdef.symm.trans hdef'
      cases hkind.symm.trans hkind'
  | @dynamic name v tokens val x hdef hkind htokens _ _ heval ih =>
    cases h' with
    | constant hdef' hkind' =>
      cases hdef.symm.trans hdef'
      cases hkind.symm.trans hkind'
    | @dynamic _ v' tokens' val' _ hdef' _ htokens' _ hnames' heval' =>
      cases hdef.symm.trans hdef'
      cases htokens.symm.trans htokens'
      have hmap : tokens.map (·.valued val) = tokens.map (·.valued val') := by
        refine List.map_congr_left fun t ht => ?_
        unfold Token.valued
        split
        · rename_i hk
          rw [ih t ht hk (hnames' t ht hk)]
        · rfl
      rw [hmap] at heval
      exact Except.ok.inj (heval.symm.trans heval')

/-- Whatever a name with a value refers to has a value too. -/
theorem of_refers (h : HasValue vars name x) {other : String} (hr : Refers vars name other) :
    ∃ y, HasValue vars other y := by
  obtain ⟨w, row, hdef', hkind', hrow, t, ht, hk, rfl⟩ := hr
  cases h with
  | constant hdef hkind =>
    cases hdef.symm.trans hdef'
    cases hkind.symm.trans hkind'
  | dynamic hdef _ htokens _ hnames =>
    cases hdef.symm.trans hdef'
    cases htokens.symm.trans hrow
    exact ⟨_, hnames t ht hk⟩

theorem of_reflTransGen (h : HasValue vars name x) {other : String}
    (hr : ReflTransGen (Refers vars) name other) : ∃ y, HasValue vars other y := by
  induction hr with
  | refl => exact ⟨x, h⟩
  | tail _ hstep ih =>
    obtain ⟨y, hy⟩ := ih
    exact hy.of_refers hstep

/-- A name with a value is on no cycle of references. -/
theorem not_transGen_self (h : HasValue vars name x) : ¬ TransGen (Refers vars) name name := by
  induction h with
  | constant hdef hkind =>
    intro hcycle
    obtain ⟨b, ⟨w, row, hdef', hkind', _⟩, _⟩ := TransGen.head'_iff.1 hcycle
    cases hdef.symm.trans hdef'
    cases hkind.symm.trans hkind'
  | dynamic hdef hkind htokens _ _ _ ih =>
    intro hcycle
    obtain ⟨b, hfirst, hback⟩ := TransGen.head'_iff.1 hcycle
    obtain ⟨w, row, hdef', _, hrow, t, ht, hk, rfl⟩ := id hfirst
    cases hdef.symm.trans hdef'
    cases htokens.symm.trans hrow
    -- The cycle can be entered at the first name it goes to.
    exact ih t ht hk (TransGen.tail' hback hfirst)

/-- From a name with a value no cycle of references is reached. -/
theorem not_transGen (h : HasValue vars name x) {other : String}
    (hr : ReflTransGen (Refers vars) name other) : ¬ TransGen (Refers vars) other other := by
  obtain ⟨y, hy⟩ := h.of_reflTransGen hr
  exact hy.not_transGen_self

end HasValue

end FormulaBook
