import FormulaBook.Proofs.Outcome
import FormulaBook.Proofs.Resolution.Meaning
import Mathlib.Data.Finset.Card

/-!
# The search without a memory

The plain depth-first search for the value of a name. It keeps nothing but the path of names that
led to it, and computes a name again whenever it meets it again. It ends because a path never holds
a name twice.

* `replaceName`: a token of an expression, with a name replaced by its value;
* `plainCompute`, `plainSearch`: the search;
* `hasValue_of_plainSearch`: what it finds is the value of the name;
* `plainSearch_of_hasValue`: it finds the value of a name that leads to no name on the path.
-/

namespace FormulaBook

open Relation Text

/-- A token with a name replaced by its value, which `find` finds. A placeholder and a name without
a definition are refused. -/
def replaceName (vars : List Variable) (user : String) (find : String → Except EvalError Float)
    (t : Token) : Except EvalError Token :=
  match t.kind with
  | .placeholder => .error (.invalidCharacter t.position)
  | .identifier =>
    if (inForce vars t.text).isNone then .error (.unknownVariable t.text (some user))
    else (find t.text).map (Token.ofValue · t.position)
  | _ => .ok t

/-- The value of a variable of a given kind, where `find` finds the values of names. -/
def plainCompute (vars : List Variable) (find : String → Except EvalError Float) (v : Variable) :
    VariableKind → Except EvalError Float
  | .constant => constantValue v
  | .dynamic => do
    let tokens ← tokenize v.expression
    let row ← tokens.mapM (replaceName vars v.name find)
    evaluateTokens row

/-- How many of the defined names are not on a path. -/
def offPath (vars : List Variable) (path : List String) : Nat :=
  ((vars.map (·.name)).toFinset \ path.toFinset).card

theorem offPath_congr (vars : List Variable) {path path' : List String}
    (h : ∀ k, k ∈ path ↔ k ∈ path') : offPath vars path = offPath vars path' := by
  have hsame : path.toFinset = path'.toFinset := by
    ext k
    rw [List.mem_toFinset, List.mem_toFinset, h]
  rw [offPath, offPath, hsame]

theorem offPath_lt {vars : List Variable} {path : List String} {name : String} {v : Variable}
    (hdef : inForce vars name = some v) (hpath : name ∉ path) :
    offPath vars (path ++ [name]) < offPath vars path := by
  have hname : name ∈ vars.map (·.name) := inForce_isSome.1 (by rw [hdef]; rfl)
  refine Finset.card_lt_card ((Finset.ssubset_iff_of_subset fun m hm => ?_).2 ⟨name, ?_, ?_⟩)
  · simp only [Finset.mem_sdiff, List.mem_toFinset, List.mem_append, not_or] at hm ⊢
    exact ⟨hm.1, hm.2.1⟩
  · simpa [hpath] using hname
  · simp

/-- The value of `name`, which has been reached along `path`, outermost name first. -/
def plainSearch (vars : List Variable) (path : List String) (name : String) :
    Except EvalError Float :=
  if hpath : name ∈ path then
    .error (.circularDependency name (path.dropWhile (· != name) ++ [name]))
  else
    match hdef : inForce vars name with
    | none => .error (.unknownVariable name none)
    | some v =>
      match v.kind.parse with
      | .error cause => .error (.invalidExpression cause)
      | .ok kind =>
        have := offPath_lt hdef hpath
        plainCompute vars (fun other => plainSearch vars (path ++ [name]) other) v kind
termination_by offPath vars path

section Equations

variable {vars : List Variable} {path : List String} {name : String} {v : Variable}

theorem plainSearch_of_mem (h : name ∈ path) : plainSearch vars path name =
    .error (.circularDependency name (path.dropWhile (· != name) ++ [name])) := by
  rw [plainSearch, dif_pos h]

theorem plainSearch_of_inForce_none (h : name ∉ path) (hdef : inForce vars name = none) :
    plainSearch vars path name = .error (.unknownVariable name none) := by
  rw [plainSearch, dif_neg h]
  split
  · rfl
  · rename_i hdef'
    cases hdef.symm.trans hdef'

theorem plainSearch_of_parse_error (h : name ∉ path) (hdef : inForce vars name = some v)
    {cause : Malformation} (hkind : v.kind.parse = .error cause) :
    plainSearch vars path name = .error (.invalidExpression cause) := by
  rw [plainSearch, dif_neg h]
  split
  · rename_i hdef'
    cases hdef.symm.trans hdef'
  · rename_i hdef'
    cases hdef.symm.trans hdef'
    simp only [hkind]

theorem plainSearch_of_parse (h : name ∉ path) (hdef : inForce vars name = some v)
    {kind : VariableKind} (hkind : v.kind.parse = .ok kind) :
    plainSearch vars path name = plainCompute vars (plainSearch vars (path ++ [name])) v kind := by
  rw [plainSearch, dif_neg h]
  split
  · rename_i hdef'
    cases hdef.symm.trans hdef'
  · rename_i hdef'
    cases hdef.symm.trans hdef'
    simp only [hkind]

/-- The plain search finds a value only for a variable of a known kind that is not on the path. -/
theorem of_plainSearch {x : Float} (h : plainSearch vars path name = .ok x) :
    name ∉ path ∧ ∃ v kind, inForce vars name = some v ∧ v.kind.parse = .ok kind ∧
      plainCompute vars (plainSearch vars (path ++ [name])) v kind = .ok x := by
  by_cases hpath : name ∈ path
  · rw [plainSearch_of_mem hpath] at h
    cases h
  cases hdef : inForce vars name with
  | none =>
    rw [plainSearch_of_inForce_none hpath hdef] at h
    cases h
  | some v =>
    cases hkind : v.kind.parse with
    | error cause =>
      rw [plainSearch_of_parse_error hpath hdef hkind] at h
      cases h
    | ok kind =>
      rw [plainSearch_of_parse hpath hdef hkind] at h
      exact ⟨hpath, v, kind, rfl, hkind, h⟩

end Equations

/-! ### Rows of replaced tokens -/

section Rows

variable {vars : List Variable} {user : String} {find : String → Except EvalError Float}

theorem replaceName_of_value {val : String → Float} {t : Token} (hplain : t.kind ≠ .placeholder)
    (hname : t.kind = .identifier →
      (inForce vars t.text).isSome = true ∧ find t.text = .ok (val t.text)) :
    replaceName vars user find t = .ok (t.valued val) := by
  unfold replaceName Token.valued
  cases hk : t.kind with
  | placeholder => exact absurd hk hplain
  | identifier =>
    obtain ⟨hdef, hfind⟩ := hname hk
    simp [Option.isNone_eq_false_iff.2 hdef, hfind, Except.map]
  | number | operator | lparen | rparen => rfl

theorem mapM_replaceName {val : String → Float} {tokens : List Token}
    (hplain : ∀ t ∈ tokens, t.kind ≠ .placeholder)
    (hnames : ∀ t ∈ tokens, t.kind = .identifier →
      (inForce vars t.text).isSome = true ∧ find t.text = .ok (val t.text)) :
    tokens.mapM (replaceName vars user find) = .ok (tokens.map (·.valued val)) := by
  induction tokens with
  | nil => rfl
  | cons t rest ih =>
    rw [List.forall_mem_cons] at hplain hnames
    rw [List.mapM_cons, replaceName_of_value hplain.1 hnames.1, ih hplain.2 hnames.2]
    rfl

theorem of_replaceName {t r : Token} (h : replaceName vars user find t = .ok r) :
    t.kind ≠ .placeholder ∧ (t.kind = .identifier →
      (inForce vars t.text).isSome = true ∧ ∃ x, find t.text = .ok x) := by
  unfold replaceName at h
  cases hk : t.kind with
  | placeholder => simp [hk] at h
  | identifier =>
    refine ⟨by simp, fun _ => ?_⟩
    simp only [hk] at h
    split at h
    · cases h
    · rename_i hdef
      obtain ⟨x, hfind, -⟩ := map_eq_ok.1 h
      exact ⟨by simpa [Option.isSome_iff_ne_none] using hdef, x, hfind⟩
  | number | operator | lparen | rparen => simp

theorem of_mapM_replaceName {tokens row : List Token}
    (h : tokens.mapM (replaceName vars user find) = .ok row) :
    ∀ t ∈ tokens, t.kind ≠ .placeholder ∧ (t.kind = .identifier →
      (inForce vars t.text).isSome = true ∧ ∃ x, find t.text = .ok x) := by
  induction tokens generalizing row with
  | nil => simp
  | cons t rest ih =>
    rw [mapM_cons_eq_bind] at h
    obtain ⟨r, ht, h⟩ := bind_eq_ok.1 h
    obtain ⟨rows, hrest, -⟩ := map_eq_ok.1 h
    exact List.forall_mem_cons.2 ⟨of_replaceName ht, ih hrest⟩

end Rows

/-! ### The plain search and the values of names -/

/-- The value that `find` finds for a name. -/
def found (find : String → Except EvalError Float) (name : String) : Float :=
  (find name).toOption.getD 0

theorem found_eq {find : String → Except EvalError Float} {name : String} {x : Float}
    (h : find name = .ok x) : find name = .ok (found find name) := by
  simp [found, h, Except.toOption]

section Compute

variable {vars : List Variable} {find : String → Except EvalError Float} {v : Variable}
  {tokens : List Token}

theorem plainCompute_dynamic {val : String → Float} (htokens : tokenize v.expression = .ok tokens)
    (hplain : ∀ t ∈ tokens, t.kind ≠ .placeholder)
    (hnames : ∀ t ∈ tokens, t.kind = .identifier →
      (inForce vars t.text).isSome = true ∧ find t.text = .ok (val t.text)) :
    plainCompute vars find v .dynamic = evaluateTokens (tokens.map (·.valued val)) := by
  have hrow : tokens.mapM (replaceName vars v.name find) = .ok (tokens.map (·.valued val)) :=
    mapM_replaceName hplain hnames
  rw [plainCompute, htokens]
  simp only [bind, Except.bind, hrow]

/-- A dynamic variable has a value only if each name in its expression has one. -/
theorem of_plainCompute_dynamic {x : Float} (h : plainCompute vars find v .dynamic = .ok x) :
    ∃ tokens, tokenize v.expression = .ok tokens ∧ (∀ t ∈ tokens, t.kind ≠ .placeholder) ∧
      (∀ t ∈ tokens, t.kind = .identifier → find t.text = .ok (found find t.text)) ∧
      evaluateTokens (tokens.map (·.valued (found find))) = .ok x := by
  have h' := h
  rw [plainCompute] at h'
  obtain ⟨tokens, htokens, h'⟩ := bind_eq_ok.1 h'
  obtain ⟨row, hrow, -⟩ := bind_eq_ok.1 h'
  have hall := of_mapM_replaceName hrow
  have hplain : ∀ t ∈ tokens, t.kind ≠ .placeholder := fun t ht => (hall t ht).1
  have hnames : ∀ t ∈ tokens, t.kind = .identifier →
      (inForce vars t.text).isSome = true ∧ find t.text = .ok (found find t.text) := by
    intro t ht hk
    obtain ⟨hsome, y, hy⟩ := (hall t ht).2 hk
    exact ⟨hsome, found_eq hy⟩
  rw [plainCompute_dynamic htokens hplain hnames] at h
  exact ⟨tokens, htokens, hplain, fun t ht hk => (hnames t ht hk).2, h⟩

end Compute

theorem hasValue_of_constantValue {vars : List Variable} {name : String} {v : Variable} {x : Float}
    (hdef : inForce vars name = some v) (hkind : v.kind.parse = .ok .constant)
    (h : constantValue v = .ok x) : HasValue vars name x := by
  unfold constantValue at h
  split at h
  · rename_i y hread
    split at h
    · rename_i hfinite
      cases h
      exact .constant hdef hkind hread hfinite
    · cases h
  · cases h

/-- What the plain search finds is the value of the name. -/
theorem hasValue_of_plainSearch {vars : List Variable} (path : List String) {name : String}
    {x : Float} (h : plainSearch vars path name = .ok x) : HasValue vars name x := by
  obtain ⟨hpath, v, kind, hdef, hkind, hcompute⟩ := of_plainSearch h
  cases kind with
  | constant => exact hasValue_of_constantValue hdef hkind hcompute
  | dynamic =>
    obtain ⟨tokens, htokens, hplain, hnames, heval⟩ := of_plainCompute_dynamic hcompute
    refine .dynamic hdef hkind htokens hplain (fun t ht hk => ?_) heval
    -- The induction is on the names that are not on the path yet.
    have := offPath_lt hdef hpath
    exact hasValue_of_plainSearch (path ++ [name]) (hnames t ht hk)
termination_by offPath vars path

/-- The plain search finds the value of a name from which no name on the path is reached. -/
theorem plainSearch_of_hasValue {vars : List Variable} {path : List String} {name : String}
    {x : Float} (h : HasValue vars name x)
    (hpath : ∀ k ∈ path, ¬ ReflTransGen (Refers vars) name k) :
    plainSearch vars path name = .ok x := by
  induction h generalizing path with
  | @constant name v x hdef hkind hread hfinite =>
    have hname : name ∉ path := fun hm => hpath name hm .refl
    rw [plainSearch_of_parse hname hdef hkind, plainCompute, constantValue, hread]
    simp [hfinite]
  | @dynamic name v tokens val x hdef hkind htokens hplain hnames heval ih =>
    have hname : name ∉ path := fun hm => hpath name hm .refl
    -- What `name` refers to is searched with `name` on the path, which it does not lead back to.
    have hself := (HasValue.dynamic hdef hkind htokens hplain hnames heval).not_transGen_self
    rw [plainSearch_of_parse hname hdef hkind, plainCompute_dynamic htokens hplain, heval]
    intro t ht hk
    have hrefers : Refers vars name t.text := ⟨v, tokens, hdef, hkind, htokens, t, ht, hk, rfl⟩
    refine ⟨(hnames t ht hk).isSome_inForce, ih t ht hk fun k hk' hreach => ?_⟩
    rcases List.mem_append.1 hk' with hk' | hk'
    · exact hpath k hk' (.head hrefers hreach)
    · rw [List.mem_singleton.1 hk'] at hreach
      exact hself (TransGen.head' hrefers hreach)

end FormulaBook
