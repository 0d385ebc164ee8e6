import FormulaBook.Proofs.Resolution.Entries

/-!
# Locality

What is recorded for a name depends only on the definitions that can be reached from it. Two lists
may differ in everything else: in the order of their definitions, in definitions that fail, and in
names that only one of them has. Nor does a search depend on the names that lead to it, as long as
it cannot meet them again.

* `dependenciesOf`, `DependsOn`: the names that the definition of a name lists;
* `Refers.dependsOn`: a search goes to listed names only;
* `plainSearch_congr`: the plain search on lists that agree where it goes;
* `lookup_congr`: the entries of lists that agree on what a name can reach.
-/

namespace FormulaBook

open Relation

/-! ### Listed names -/

/-- The names that the definition of `name` lists; none if there is no definition. -/
def dependenciesOf (vars : List Variable) (name : String) : List String :=
  match inForce vars name with
  | some v => v.dependencies
  | none => []

/-- The definition of `a` lists `b`. -/
def DependsOn (vars : List Variable) (a b : String) : Prop := b ∈ dependenciesOf vars a

instance (vars : List Variable) (a b : String) : Decidable (DependsOn vars a b) :=
  inferInstanceAs (Decidable (b ∈ dependenciesOf vars a))

section Listed

variable {vars : List Variable} {a b : String}

theorem mem_identifierNames {tokens : List Token} {name : String} :
    name ∈ identifierNames tokens ↔ ∃ t ∈ tokens, t.kind = .identifier ∧ t.text = name := by
  simp [identifierNames, and_assoc]

theorem mem_dependencies {v : Variable} {name : String} : name ∈ v.dependencies ↔
    v.isConstant = false ∧ ∃ tokens, tokenize v.expression = .ok tokens ∧
      ∃ t ∈ tokens, t.kind = .identifier ∧ t.text = name := by
  rw [Variable.dependencies]
  cases v.isConstant with
  | true => simp
  | false =>
    cases tokenize v.expression with
    | error e => simp
    | ok tokens => simp [mem_identifierNames]

/-- What bears the name of the constant kind is read as a constant. -/
theorem parse_of_isConstant {v : Variable} (h : v.isConstant = true) :
    v.kind.parse = .ok .constant := by
  have hname : v.kind.name = "CONSTANT" := beq_iff_eq.1 h
  cases hk : v.kind with
  | known kind =>
    cases kind with
    | constant => rfl
    | dynamic =>
      rw [hk] at hname
      exact absurd hname (by decide)
  | text s =>
    rw [hk] at hname
    cases hname
    rfl

/-- What is read as a dynamic variable does not bear that name. -/
theorem isConstant_of_parse {v : Variable} (h : v.kind.parse = .ok .dynamic) :
    v.isConstant = false := by
  cases hc : v.isConstant with
  | false => rfl
  | true => cases h.symm.trans (parse_of_isConstant hc)

/-- A variable refers only to names that its definition lists, whatever its kind is stated as. -/
theorem Refers.dependsOn (h : Refers vars a b) : DependsOn vars a b := by
  obtain ⟨v, tokens, hdef, hkind, htokens, hname⟩ := h
  rw [DependsOn, dependenciesOf, hdef]
  exact mem_dependencies.2 ⟨isConstant_of_parse hkind, tokens, htokens, hname⟩

end Listed

/-! ### Searches on two lists -/

section Congr

variable {vars vars' : List Variable} {find find' : String → Except EvalError Float}

theorem replaceName_congr (user : String) {t : Token} (h : t.kind = .identifier →
    (inForce vars t.text).isNone = (inForce vars' t.text).isNone ∧ find t.text = find' t.text) :
    replaceName vars user find t = replaceName vars' user find' t := by
  unfold replaceName
  cases hk : t.kind with
  | identifier =>
    obtain ⟨hdef, hfind⟩ := h hk
    rw [hdef, hfind]
  | number | operator | lparen | rparen | placeholder => rfl

/-- Two computations of a variable agree if they agree on the names in its expression. -/
theorem plainCompute_congr {v : Variable} {kind : VariableKind}
    (h : kind = .dynamic → ∀ tokens, tokenize v.expression = .ok tokens → ∀ t ∈ tokens,
      t.kind = .identifier → (inForce vars t.text).isNone = (inForce vars' t.text).isNone ∧
        find t.text = find' t.text) :
    plainCompute vars find v kind = plainCompute vars' find' v kind := by
  cases kind with
  | constant => rfl
  | dynamic =>
    rw [plainCompute, plainCompute]
    cases htokens : tokenize v.expression with
    | error e => rfl
    | ok tokens =>
      have hrow : tokens.mapM (replaceName vars v.name find) =
          tokens.mapM (replaceName vars' v.name find') :=
        mapM_congr fun t ht => replaceName_congr v.name (h rfl tokens htokens t ht)
      simp only [bind, Except.bind, hrow]

/-- The plain search is the same on lists that agree on what the name refers to, directly or not,
and also along a path that begins with names that cannot be met again. -/
theorem plainSearch_congr {outer path : List String} {name : String}
    (hagree : ∀ other, ReflTransGen (Refers vars) name other →
      inForce vars other = inForce vars' other)
    (houter : ∀ k ∈ outer, ¬ ReflTransGen (Refers vars) name k) :
    plainSearch vars (outer ++ path) name = plainSearch vars' path name := by
  have hname : name ∉ outer := fun hm => houter name hm .refl
  by_cases hpath : name ∈ path
  · have hskip : ∀ k ∈ outer, (k != name) = true := fun k hk =>
      bne_iff_ne.2 fun heq => hname (heq ▸ hk)
    rw [plainSearch_of_mem (List.mem_append_right outer hpath), plainSearch_of_mem hpath,
      List.dropWhile_append_of_pos hskip]
  have hboth : name ∉ outer ++ path := by simp [hname, hpath]
  have hself := hagree name .refl
  cases hdef : inForce vars' name with
  | none =>
    rw [plainSearch_of_inForce_none hboth (hself.trans hdef),
      plainSearch_of_inForce_none hpath hdef]
  | some v =>
    cases hkind : v.kind.parse with
    | error cause =>
      rw [plainSearch_of_parse_error hboth (hself.trans hdef) hkind,
        plainSearch_of_parse_error hpath hdef hkind]
    | ok kind =>
      rw [plainSearch_of_parse hboth (hself.trans hdef) hkind,
        plainSearch_of_parse hpath hdef hkind]
      refine plainCompute_congr fun hdynamic tokens htokens t ht hk => ?_
      have hrefers : Refers vars name t.text :=
        ⟨v, tokens, hself.trans hdef, hdynamic ▸ hkind, htokens, t, ht, hk, rfl⟩
      refine ⟨congrArg Option.isNone (hagree t.text (.single hrefers)), ?_⟩
      -- The induction is on the names that are not on the path yet.
      have := offPath_lt hdef hpath
      rw [List.append_assoc]
      exact plainSearch_congr (fun other hr => hagree other (.head hrefers hr))
        fun k hk hr => houter k hk (.head hrefers hr)
termination_by offPath vars' path

end Congr

/-! ### Entries of two lists -/

/-- **What is recorded for a name depends on nothing but the definitions that it can reach**: two
lists that agree on the name and on all names it depends on, directly or not, record the same value
or the same error for it. -/
theorem lookup_congr {vars vars' : List Variable} {depth depth' : Nat}
    (hcomplete : (resolveWithin depth vars).Complete)
    (hcomplete' : (resolveWithin depth' vars').Complete) {name : String}
    (hname : name ∈ vars.map (·.name))
    (hagree : ∀ other, ReflTransGen (DependsOn vars) name other →
      inForce vars other = inForce vars' other) :
    (∃ entry, (resolveWithin depth vars).entries.lookup name = some entry ∧
        (resolveWithin depth' vars').entries.lookup name = some entry) ∧
      (resolveWithin depth vars).values.lookup name =
        (resolveWithin depth' vars').values.lookup name ∧
      (resolveWithin depth vars).errors.lookup name =
        (resolveWithin depth' vars').errors.lookup name := by
  have hplain : plainSearch vars ([] ++ []) name = plainSearch vars' [] name :=
    plainSearch_congr
      (fun other hr => hagree other (ReflTransGen.mono (fun _ _ => Refers.dependsOn) _ _ hr))
      (by simp)
  rw [List.append_nil] at hplain
  have hmem := mem_names_ofList.2 hname
  have hmem' : name ∈ (Definitions.ofList vars').names := by
    rw [mem_names_iff_inForce, ← hagree name .refl, inForce_isSome]
    exact hname
  have hentries := entries_eq hcomplete
  have hentries' := entries_eq hcomplete'
  refine ⟨⟨plainSearch vars [] name, ?_, ?_⟩, ?_, ?_⟩
  · rw [lookup_entries hentries, if_pos hmem]
  · rw [lookup_entries hentries', if_pos hmem', hplain]
  · rw [lookup_values hentries, lookup_values hentries', if_pos hmem, if_pos hmem', hplain]
  · rw [lookup_errors hentries, lookup_errors hentries', if_pos hmem, if_pos hmem', hplain]

/-- Names that list only each other are all that one of them reaches. -/
theorem mem_of_reflTransGen {vars : List Variable} {names : List String}
    (hclosed : ∀ a ∈ names, ∀ b ∈ dependenciesOf vars a, b ∈ names) {name other : String}
    (hname : name ∈ names) (h : ReflTransGen (DependsOn vars) name other) : other ∈ names := by
  induction h with
  | refl => exact hname
  | tail _ hstep ih => exact hclosed _ ih _ hstep

/-- The list `tangled` in another order, without one member of its cycle and with the other one
broken. -/
def rearranged : List Variable :=
  [⟨"E", .text " dynamic", "A + A"⟩, ⟨"B", .known .dynamic, "1 + ?"⟩,
    ⟨"D", .known .dynamic, "A - A / E"⟩, ⟨"G", .known .dynamic, "D + H"⟩,
    ⟨"A", .known .constant, " 2 "⟩]

/-- A variable whose entry is the same in both lists, although most of what it does not reach has
changed. -/
theorem lookup_congr_rearranged : (resolve tangled).Complete ∧ (resolve rearranged).Complete ∧
    "D" ∈ tangled.map (·.name) ∧
    (∀ other, ReflTransGen (DependsOn tangled) "D" other →
      inForce tangled other = inForce rearranged other) ∧
    (resolve tangled).values.lookup "D" = (resolve rearranged).values.lookup "D" ∧
    (resolve tangled).errors.lookup "B" ≠ (resolve rearranged).errors.lookup "B" := by
  have hcomplete : (resolve tangled).Complete := by decide +kernel
  have hcomplete' : (resolve rearranged).Complete := by decide +kernel
  have hname : "D" ∈ tangled.map (·.name) := by decide
  have hagree : ∀ other, ReflTransGen (DependsOn tangled) "D" other →
      inForce tangled other = inForce rearranged other := by
    intro other h
    have hmem : other ∈ ["D", "A", "E"] := mem_of_reflTransGen (by decide +kernel) (by decide) h
    have hall : ∀ k ∈ ["D", "A", "E"], inForce tangled k = inForce rearranged k := by decide
    exact hall other hmem
  exact ⟨hcomplete, hcomplete', hname, hagree,
    (lookup_congr hcomplete hcomplete' hname hagree).2.1, by decide +kernel⟩

end FormulaBook
