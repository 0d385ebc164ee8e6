import FormulaBook.Proofs.Outcome
import FormulaBook.Resolution.Basic
import Mathlib.Data.List.Basic

/-!
# The steps of a search

What the search does with one token, with a row of tokens and with a name that is entered. A
property of states that is kept whenever a name is entered is kept by every row of tokens and by
every expression.

* `andThen`: a search that goes on from an outcome;
* `replace`, `substitute_cons`: the tokens of a row are replaced one after the other;
* `EntersIn`, `Enters`: the names that a row or an expression enters, each in the state that is
  reached by then;
* `substitute_induction`, `compute_induction`: what every entered name keeps;
* `compute_congr_enter`: what is computed depends on no name that is not entered;
* `SearchFailure.OfChain`: the failures that tell of a chain that is too long;
* `SearchState.Admits`, `Opens`: a name that is computed when it is entered;
* `leave`: what is done when a name has been computed;
* `enter_of_lookup` to `enter_succ`, `enter_cases`: what happens when a name is entered;
* `enter_induction`: what holds of every name that is entered.
-/

namespace FormulaBook

/-- A search that goes on from an outcome, unless that is a failure. -/
def andThen {α β : Type} (result : Except SearchFailure α × SearchState) (next : α → Search β) :
    Except SearchFailure β × SearchState :=
  match result with
  | (.error e, s) => (.error e, s)
  | (.ok a, s) => next a s

section AndThen

variable {α β : Type} {result : Except SearchFailure α × SearchState} {next : α → Search β}

theorem andThen_of_ok {a : α} (h : result.1 = .ok a) : andThen result next = next a result.2 := by
  obtain ⟨outcome, s⟩ := result
  cases h
  rfl

theorem andThen_map_snd (result : Except SearchFailure α × SearchState) (f : α → β) :
    (andThen result fun a s => (.ok (f a), s)).2 = result.2 := by
  obtain ⟨outcome, s⟩ := result
  cases outcome <;> rfl

theorem andThen_eq_ok {b : β} : (andThen result next).1 = .ok b ↔
      ∃ a, result.1 = .ok a ∧ (next a result.2).1 = .ok b := by
  obtain ⟨outcome, s⟩ := result
  cases outcome <;> simp [andThen]

theorem andThen_eq_error {e : SearchFailure} : (andThen result next).1 = .error e ↔
      result.1 = .error e ∨ ∃ a, result.1 = .ok a ∧ (next a result.2).1 = .error e := by
  obtain ⟨outcome, s⟩ := result
  cases outcome <;> simp [andThen]

/-- What holds of the state after the first search, and is kept by the second one, holds in the
end. -/
theorem andThen_induction {P : SearchState → Prop} (h : P result.2)
    (hnext : ∀ a, result.1 = .ok a → P (next a result.2).2) : P (andThen result next).2 := by
  obtain ⟨outcome, s⟩ := result
  cases outcome with
  | error e => exact h
  | ok a => exact hnext a rfl

theorem andThen_congr {next' : α → Search β}
    (h : ∀ a, result.1 = .ok a → next a result.2 = next' a result.2) :
    andThen result next = andThen result next' := by
  obtain ⟨outcome, s⟩ := result
  cases outcome with
  | error e => rfl
  | ok a => exact h a rfl

end AndThen

/-! ### Rows of tokens -/

section Rows

variable {enterName : String → Search Float} {defs : Definitions} {user other : String}
  {v : Variable} {kind : VariableKind} {t : Token} {tokens rest : List Token}
  {s s' : SearchState} {P : SearchState → Prop}

/-- One token of the expression of `user`, with a name replaced by its value. -/
def replace (enterName : String → Search Float) (defs : Definitions) (user : String) (t : Token) :
    Search Token := fun s =>
  match t.kind with
  | .placeholder => (.error (.error (.invalidCharacter t.position)), s)
  | .identifier =>
    if (defs.lookup t.text).isNone then
      (.error (.error (.unknownVariable t.text (some user))), s)
    else ((enterName t.text s).1.map (Token.ofValue · t.position), (enterName t.text s).2)
  | _ => (.ok t, s)

theorem replace_of_name (hk : t.kind = .identifier) (hdef : (defs.lookup t.text).isSome = true) :
    replace enterName defs user t s =
      ((enterName t.text s).1.map (Token.ofValue · t.position), (enterName t.text s).2) := by
  rw [replace, hk]
  exact if_neg (by simp [Option.isNone_eq_false_iff.2 hdef])

/-- A token is kept or refused as it is, or it is a defined name, which is entered. -/
theorem replace_cases (enterName : String → Search Float) (defs : Definitions) (user : String)
    (t : Token) (s : SearchState) :
    t.kind ≠ .identifier ∧ replace enterName defs user t s = (.ok t, s) ∨
      (∃ e, (e = .invalidCharacter t.position ∨ e = .unknownVariable t.text (some user)) ∧
        replace enterName defs user t s = (.error (.error e), s)) ∨
      t.kind = .identifier ∧ (defs.lookup t.text).isSome = true := by
  by_cases hdef : (defs.lookup t.text).isSome = true
  · cases hk : t.kind with
    | placeholder => exact .inr (.inl ⟨_, .inl rfl, by rw [replace, hk]⟩)
    | identifier => exact .inr (.inr ⟨rfl, hdef⟩)
    | number | operator | lparen | rparen => exact .inl ⟨nofun, by rw [replace, hk]⟩
  · rw [Option.not_isSome_iff_eq_none] at hdef
    cases hk : t.kind with
    | placeholder => exact .inr (.inl ⟨_, .inl rfl, by rw [replace, hk]⟩)
    | identifier => exact .inr (.inl ⟨_, .inr rfl, by simp [replace, hk, hdef]⟩)
    | number | operator | lparen | rparen => exact .inl ⟨nofun, by rw [replace, hk]⟩

theorem substitute_cons (t : Token) (rest : List Token) (s : SearchState) :
    substitute enterName defs user (t :: rest) s =
      andThen (replace enterName defs user t s) fun r s' =>
        andThen (substitute enterName defs user rest s') fun row s'' => (.ok (r :: row), s'') := by
  rw [substitute, replace]
  cases hk : t.kind with
  | placeholder => rfl
  | identifier =>
    dsimp only
    split
    · rfl
    · obtain ⟨outcome, s'⟩ := enterName t.text s
      cases outcome with
      | error e => rfl
      | ok x =>
        simp only [andThen, Except.map]
        obtain ⟨outcome', s''⟩ := substitute enterName defs user rest s'
        cases outcome' <;> rfl
  | number | operator | lparen | rparen =>
    simp only [andThen]
    obtain ⟨outcome, s'⟩ := substitute enterName defs user rest s
    cases outcome <;> rfl

theorem dynamicValue_eq (v : Variable) (s : SearchState) :
    dynamicValue enterName defs v s =
      match tokenize v.expression with
      | .error e => (.error (.error e), s)
      | .ok tokens => andThen (substitute enterName defs v.name tokens s) fun row s' =>
          ((evaluateTokens row).mapError .error, s') := by
  rw [dynamicValue]
  cases tokenize v.expression with
  | error e => rfl
  | ok tokens =>
    simp only [andThen]
    obtain ⟨outcome, s'⟩ := substitute enterName defs v.name tokens s
    cases outcome <;> rfl

/-- While the tokens of a row are replaced, from the state `s` on, a name is entered in a state. -/
inductive EntersIn (enterName : String → Search Float) (defs : Definitions) (user : String) :
    List Token → SearchState → String → SearchState → Prop
  | here {t : Token} {rest : List Token} {s : SearchState} (hk : t.kind = .identifier)
      (hdef : (defs.lookup t.text).isSome = true) :
      EntersIn enterName defs user (t :: rest) s t.text s
  | there {t r : Token} {rest : List Token} {s s' : SearchState} {other : String}
      (hr : (replace enterName defs user t s).1 = .ok r)
      (h : EntersIn enterName defs user rest (replace enterName defs user t s).2 other s') :
      EntersIn enterName defs user (t :: rest) s other s'

/-- While a variable of a given kind is computed, from the state `s` on, a name is entered in a
state. -/
inductive Enters (enterName : String → Search Float) (defs : Definitions) (v : Variable)
    (s : SearchState) : VariableKind → String → SearchState → Prop
  | dynamic {tokens : List Token} {other : String} {s' : SearchState}
      (htokens : tokenize v.expression = .ok tokens)
      (h : EntersIn enterName defs v.name tokens s other s') :
      Enters enterName defs v s .dynamic other s'

theorem EntersIn.exists_token (h : EntersIn enterName defs user tokens s other s') :
    ∃ t ∈ tokens, t.kind = .identifier ∧ t.text = other ∧ (defs.lookup other).isSome = true := by
  induction h with
  | here hk hdef => exact ⟨_, List.mem_cons_self, hk, rfl, hdef⟩
  | there hr h ih =>
    obtain ⟨t, ht, hname⟩ := ih
    exact ⟨t, List.mem_cons_of_mem _ ht, hname⟩

theorem Enters.isSome_lookup (h : Enters enterName defs v s kind other s') :
    (defs.lookup other).isSome = true := by
  obtain ⟨htokens, h⟩ := h
  obtain ⟨-, -, -, -, hdef⟩ := h.exists_token
  exact hdef

/-- Every name of a row that is replaced has been entered, and has a value. -/
theorem exists_entersIn {row : List Token}
    (h : (substitute enterName defs user tokens s).1 = .ok row) (ht : t ∈ tokens)
    (hk : t.kind = .identifier) :
    ∃ s' x, EntersIn enterName defs user tokens s t.text s' ∧ (enterName t.text s').1 = .ok x := by
  induction tokens generalizing s row with
  | nil => cases ht
  | cons first rest ih =>
    rw [substitute_cons] at h
    obtain ⟨r, hr, hrest⟩ := andThen_eq_ok.1 h
    obtain ⟨row', hrest, -⟩ := andThen_eq_ok.1 hrest
    rcases List.mem_cons.1 ht with rfl | ht
    · obtain ⟨hne, -⟩ | ⟨e, -, hrefused⟩ | ⟨-, hdef⟩ := replace_cases enterName defs user t s
      · exact absurd hk hne
      · rw [hrefused] at hr
        cases hr
      · rw [replace_of_name hk hdef] at hr
        obtain ⟨x, hx, -⟩ := map_eq_ok.1 hr
        exact ⟨s, x, .here hk hdef, hx⟩
    · obtain ⟨s', x, hother, hx⟩ := ih hrest ht
      exact ⟨s', x, .there hr hother, hx⟩

/-- A dynamic variable that has a value has entered every name of its expression, and found a
value. -/
theorem exists_enters {x : Float} (h : (compute enterName defs v .dynamic s).1 = .ok x)
    (htokens : tokenize v.expression = .ok tokens) (ht : t ∈ tokens) (hk : t.kind = .identifier) :
    ∃ s' y, Enters enterName defs v s .dynamic t.text s' ∧ (enterName t.text s').1 = .ok y := by
  rw [compute, dynamicValue_eq, htokens] at h
  obtain ⟨row, hrow, -⟩ := andThen_eq_ok.1 h
  obtain ⟨s', y, hother, hy⟩ := exists_entersIn hrow ht hk
  exact ⟨s', y, .dynamic htokens hother, hy⟩

/-- A name of a row that has no value decides the outcome of the row. -/
theorem EntersIn.eq_error (h : EntersIn enterName defs user tokens s other s')
    {e : SearchFailure} (he : (enterName other s').1 = .error e) :
    (substitute enterName defs user tokens s).1 = .error e := by
  induction h with
  | here hk hdef =>
    rw [substitute_cons, replace_of_name hk hdef, he]
    rfl
  | there hr h ih =>
    rw [substitute_cons, andThen_of_ok hr]
    exact andThen_eq_error.2 (.inl (ih he))

theorem Enters.eq_error (h : Enters enterName defs v s kind other s') {e : SearchFailure}
    (he : (enterName other s').1 = .error e) : (compute enterName defs v kind s).1 = .error e := by
  obtain ⟨htokens, h⟩ := h
  rw [compute, dynamicValue_eq, htokens]
  exact andThen_eq_error.2 (.inl (h.eq_error he))

/-! ### What is kept whenever a name is entered -/

theorem replace_induction (hs : P s)
    (henter : t.kind = .identifier → (defs.lookup t.text).isSome = true →
      P (enterName t.text s).2) : P (replace enterName defs user t s).2 := by
  obtain ⟨-, hkept⟩ | ⟨e, -, hrefused⟩ | ⟨hk, hdef⟩ := replace_cases enterName defs user t s
  · rwa [hkept]
  · rwa [hrefused]
  · rw [replace_of_name hk hdef]
    exact henter hk hdef

/-- What is kept whenever a name is entered still holds when the next name of a row is entered. -/
theorem EntersIn.induction (h : EntersIn enterName defs user tokens s other s') (hs : P s)
    (henter : ∀ other s', P s' → P (enterName other s').2) : P s' := by
  induction h with
  | here hk hdef => exact hs
  | there hr h ih => exact ih (replace_induction hs fun _ _ => henter _ _ hs)

/-- What is kept whenever a name of a row is entered, the replacement of the row keeps. -/
theorem substitute_induction (hs : P s)
    (henter : ∀ other s', EntersIn enterName defs user tokens s other s' → P s' →
      P (enterName other s').2) :
    P (substitute enterName defs user tokens s).2 := by
  induction tokens generalizing s with
  | nil => exact hs
  | cons t rest ih =>
    rw [substitute_cons]
    have hfirst : P (replace enterName defs user t s).2 :=
      replace_induction hs fun hk hdef => henter t.text s (.here hk hdef) hs
    refine andThen_induction hfirst fun r hr => ?_
    have hrest := ih hfirst fun other s' h => henter other s' (.there hr h)
    exact andThen_induction hrest fun _ _ => hrest

/-- What is kept whenever a name of an expression is entered, the computation of a variable
keeps. -/
theorem compute_induction (hs : P s)
    (henter : ∀ other s', Enters enterName defs v s kind other s' → P s' →
      P (enterName other s').2) :
    P (compute enterName defs v kind s).2 := by
  cases kind with
  | constant => exact hs
  | dynamic =>
    rw [compute, dynamicValue_eq]
    cases htokens : tokenize v.expression with
    | error e => exact hs
    | ok tokens =>
      have hrow := substitute_induction hs fun other s' h => henter other s' (.dynamic htokens h)
      exact andThen_induction hrow fun _ _ => hrow

/-! ### What does not depend on names that are not entered -/

section Congr

variable {enterName' : String → Search Float}

theorem replace_congr_enter
    (h : t.kind = .identifier → (defs.lookup t.text).isSome = true →
      enterName' t.text s = enterName t.text s) :
    replace enterName' defs user t s = replace enterName defs user t s := by
  rw [replace, replace]
  cases hk : t.kind with
  | identifier =>
    dsimp only
    split
    · rfl
    · rename_i hdef
      rw [h hk (by simpa [Option.isSome_iff_ne_none] using hdef)]
  | placeholder | number | operator | lparen | rparen => rfl

/-- A row is replaced alike by two ways of entering names that agree wherever one of them enters a
name. -/
theorem substitute_congr_enter
    (h : ∀ other s', EntersIn enterName defs user tokens s other s' →
      enterName' other s' = enterName other s') :
    substitute enterName' defs user tokens s = substitute enterName defs user tokens s := by
  induction tokens generalizing s with
  | nil => rfl
  | cons t rest ih =>
    have hfirst : replace enterName' defs user t s = replace enterName defs user t s :=
      replace_congr_enter fun hk hdef => h t.text s (.here hk hdef)
    rw [substitute_cons, substitute_cons, hfirst]
    refine andThen_congr fun r hr => ?_
    rw [ih fun other s' hother => h other s' (.there hr hother)]

/-- A variable is computed alike by two ways of entering names that agree wherever one of them
enters a name. -/
theorem compute_congr_enter
    (h : ∀ other s', Enters enterName defs v s kind other s' →
      enterName' other s' = enterName other s') :
    compute enterName' defs v kind s = compute enterName defs v kind s := by
  cases kind with
  | constant => rfl
  | dynamic =>
    rw [compute, compute, dynamicValue_eq, dynamicValue_eq]
    cases htokens : tokenize v.expression with
    | error e => rfl
    | ok tokens =>
      dsimp only
      rw [substitute_congr_enter fun other s' hother => h other s' (.dynamic htokens hother)]

end Congr

end Rows

/-! ### Names that are entered -/

/-- The failures that tell of a chain that is too long. -/
def SearchFailure.OfChain : SearchFailure → Prop
  | .tooDeep | .error (.invalidExpression (.depth _)) => True
  | _ => False

/-- `name` is computed if it is entered: no value of it is kept, and it is not being computed. -/
structure SearchState.Admits (s : SearchState) (name : String) : Prop where
  lookup_eq : s.cache.lookup name = none
  not_mem : name ∉ s.inProgress

instance (s : SearchState) (name : String) : Decidable (s.Admits name) :=
  decidable_of_iff (s.cache.lookup name = none ∧ name ∉ s.inProgress)
    ⟨fun h => ⟨h.1, h.2⟩, fun h => ⟨h.lookup_eq, h.not_mem⟩⟩

/-- The end of the computation of `name`: its value is kept, and it is no longer computed. -/
def leave (name : String) (result : Except SearchFailure Float × SearchState) :
    Except SearchFailure Float × SearchState :=
  match result with
  | (.ok x, s) => (.ok x, (s.store name x).pop name)
  | (.error e, s) => (.error e, s.pop name)

theorem leave_fst (name : String) (result : Except SearchFailure Float × SearchState) :
    (leave name result).1 = result.1 := by
  obtain ⟨outcome, s⟩ := result
  cases outcome <;> rfl

theorem leave_cache_of_ok {name : String} {result : Except SearchFailure Float × SearchState}
    {x : Float} (h : result.1 = .ok x) :
    (leave name result).2.cache = (name, x) :: result.2.cache := by
  obtain ⟨outcome, s⟩ := result
  cases h
  rfl

theorem leave_cache_of_error {name : String} {result : Except SearchFailure Float × SearchState}
    {e : SearchFailure} (h : result.1 = .error e) :
    (leave name result).2.cache = result.2.cache := by
  obtain ⟨outcome, s⟩ := result
  cases h
  rfl

section Enter

variable {defs : Definitions} {depth : Nat} {name : String} {s : SearchState} {v : Variable}

theorem enter_of_lookup {x : Float} (h : s.cache.lookup name = some x) :
    enter defs depth name s = (.ok x, s) := by
  unfold enter
  simp only [h]

theorem enter_of_mem (hcache : s.cache.lookup name = none) (h : name ∈ s.inProgress) :
    enter defs depth name s =
      (.error (.error (.circularDependency name (s.cycle name))), s) := by
  unfold enter
  simp only [hcache, if_pos h]

variable (h : s.Admits name)
include h

theorem enter_of_lookup_eq_none (hdef : defs.lookup name = none) :
    enter defs depth name s = (.error (.error (.unknownVariable name none)), s) := by
  unfold enter
  simp only [h.lookup_eq, if_neg h.not_mem, hdef]

theorem enter_of_parse_error (hdef : defs.lookup name = some v) {cause : Malformation}
    (hkind : v.kind.parse = .error cause) :
    enter defs depth name s = (.error (.error (.invalidExpression cause)), s) := by
  unfold enter
  simp only [h.lookup_eq, if_neg h.not_mem, hdef, hkind]

end Enter

/-- `name` has a definition of a kind, and is computed if it is entered. -/
structure Opens (defs : Definitions) (s : SearchState) (name : String) (v : Variable)
    (kind : VariableKind) : Prop where
  admits : s.Admits name
  lookup_eq : defs.lookup name = some v
  parse_eq : v.kind.parse = .ok kind

section Opens

variable {defs : Definitions} {name : String} {s : SearchState} {v : Variable}
  {kind : VariableKind}

theorem enter_zero (h : Opens defs s name v kind) :
    enter defs 0 name s = (.error .tooDeep, s) := by
  obtain ⟨⟨hcache, hmem⟩, hdef, hkind⟩ := h
  unfold enter
  simp only [hcache, if_neg hmem, hdef, hkind]

theorem enter_succ (h : Opens defs s name v kind) (depth : Nat) :
    enter defs (depth + 1) name s =
      leave name (compute (enter defs depth) defs v kind (s.push name)) := by
  obtain ⟨⟨hcache, hmem⟩, hdef, hkind⟩ := h
  unfold enter
  simp only [hcache, if_neg hmem, hdef, hkind]
  obtain ⟨outcome, s'⟩ := compute (enter defs depth) defs v kind (s.push name)
  cases outcome <;> rfl

theorem exists_kind_of_parse_error {kind : StatedKind} {cause : Malformation}
    (h : kind.parse = .error cause) : ∃ shown, cause = .kind shown := by
  cases kind with
  | known kind => cases h
  | text s =>
    rw [StatedKind.parse] at h
    cases htext : VariableKind.ofText? s with
    | some kind => simp [htext] at h
    | none =>
      rw [htext] at h
      exact ⟨Text.quote s, (Except.error.inj h).symm⟩

/-- A name that is entered is computed; or it leaves the state as it is and has the same outcome at
every depth, which is no failure of a chain and no value but the one that is kept. -/
theorem enter_cases (defs : Definitions) (name : String) (s : SearchState) :
    (∃ v kind, Opens defs s name v kind) ∨
      ∃ outcome, (∀ depth, enter defs depth name s = (outcome, s)) ∧
        (∀ e, outcome = .error e → ¬ e.OfChain) ∧
        ∀ x, outcome = .ok x → s.cache.lookup name = some x := by
  cases hcache : s.cache.lookup name with
  | some x =>
    refine .inr ⟨_, fun _ => enter_of_lookup hcache, nofun, fun y hy => ?_⟩
    exact congrArg some (Except.ok.inj hy)
  | none =>
    by_cases hmem : name ∈ s.inProgress
    · refine .inr ⟨_, fun _ => enter_of_mem hcache hmem, ?_, nofun⟩
      rintro _ ⟨⟩
      exact id
    have hadmits : s.Admits name := ⟨hcache, hmem⟩
    cases hdef : defs.lookup name with
    | none =>
      refine .inr ⟨_, fun _ => enter_of_lookup_eq_none hadmits hdef, ?_, nofun⟩
      rintro _ ⟨⟩
      exact id
    | some v =>
      cases hkind : v.kind.parse with
      | error cause =>
        obtain ⟨shown, rfl⟩ := exists_kind_of_parse_error hkind
        refine .inr ⟨_, fun _ => enter_of_parse_error hadmits hdef hkind, ?_, nofun⟩
        rintro _ ⟨⟩
        exact id
      | ok kind => exact .inl ⟨v, kind, hadmits, hdef, hkind⟩

/-- What holds of names that are not computed, of names for which there is no room, and of a name
that is computed if it holds of all names with one less room, holds of every name that is
entered. -/
theorem enter_induction
    {motive : Nat → String → SearchState → Except SearchFailure Float × SearchState → Prop}
    (kept : ∀ depth name s outcome, (∀ room, enter defs room name s = (outcome, s)) →
      (∀ e, outcome = .error e → ¬ e.OfChain) → motive depth name s (outcome, s))
    (cut : ∀ name s, motive 0 name s (.error .tooDeep, s))
    (computed : ∀ depth name s v kind, Opens defs s name v kind →
      (∀ other s', motive depth other s' (enter defs depth other s')) →
      motive (depth + 1) name s
        (leave name (compute (enter defs depth) defs v kind (s.push name))))
    (depth : Nat) (name : String) (s : SearchState) :
    motive depth name s (enter defs depth name s) := by
  induction depth generalizing name s with
  | zero =>
    obtain ⟨v, kind, hopens⟩ | ⟨outcome, hkept, hne, -⟩ := enter_cases defs name s
    · rw [enter_zero hopens]
      exact cut name s
    · rw [hkept]
      exact kept 0 name s outcome hkept hne
  | succ depth ih =>
    obtain ⟨v, kind, hopens⟩ | ⟨outcome, hkept, hne, -⟩ := enter_cases defs name s
    · rw [enter_succ hopens]
      exact computed depth name s v kind hopens ih
    · rw [hkept]
      exact kept (depth + 1) name s outcome hkept hne

end Opens

end FormulaBook
