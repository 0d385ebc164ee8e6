import FormulaBook.Proofs.Resolution.Activations
import FormulaBook.Proofs.Resolution.Cycles
import FormulaBook.Proofs.Resolution.Totality
import FormulaBook.Proofs.Text.Name

/-!
# The order in which values are kept

The values of a list are kept one after the other, each when all that it is computed from has been
kept, and none a second time. Nothing is kept of a name that is being computed. In the end the kept
values are those of the list, and those of names that could not be resolved because their chains
were too long when they were entered from outside.

* `InOrder`: every kept value stands after the values that it refers to;
* `enter_inOrder`: the values that a name adds when it is entered are in order;
* `Activation.cache_suffix`: what a call leaves is there in the end;
* `values_kept_in_order`: the kept values in every state of a resolution, and in the end.
-/

namespace FormulaBook

/-- Each name has one value, and the names that it refers to have their values before it. The value
that was kept last stands first. -/
inductive InOrder (vars : List Variable) : List (String × Float) → Prop
  | nil : InOrder vars []
  | cons {name : String} {x : Float} {cache : List (String × Float)}
      (hnew : name ∉ cache.map (·.1))
      (hrefers : ∀ other, Refers vars name other → other ∈ cache.map (·.1))
      (h : InOrder vars cache) : InOrder vars ((name, x) :: cache)

namespace InOrder

variable {vars : List Variable} {cache later earlier : List (String × Float)}

theorem nodup (h : InOrder vars cache) : (cache.map (·.1)).Nodup := by
  induction h with
  | nil => exact List.nodup_nil
  | cons hnew _ _ ih => exact List.nodup_cons.2 ⟨hnew, ih⟩

theorem of_append (h : InOrder vars (later ++ cache)) : InOrder vars cache := by
  induction later with
  | nil => exact h
  | cons p later ih =>
    cases h with
    | cons _ _ h => exact ih h

/-- What a name refers to stands before it. -/
theorem mem_of_refers {name other : String} {x : Float}
    (h : InOrder vars (later ++ (name, x) :: earlier)) (hrefers : Refers vars name other) :
    other ∈ earlier.map (·.1) := by
  cases h.of_append with
  | cons _ hbefore _ => exact hbefore other hrefers

end InOrder

/-! ### Names that are entered -/

section Enter

variable {vars : List Variable} {defs : Definitions} {limit depth : Nat} {opened : List String}
  {name : String} {s : SearchState} {v : Variable} {kind : VariableKind}

/-- When a variable has a value, whatever it refers to is kept. -/
theorem mem_cache_of_refers (hdefs : ∀ name, defs.lookup name = inForce vars name)
    (hopens : Opens defs s name v kind) {x : Float}
    (hx : (compute (enter defs depth) defs v kind (s.push name)).1 = .ok x) {other : String}
    (hrefers : Refers vars name other) :
    other ∈ (compute (enter defs depth) defs v kind (s.push name)).2.cache.map (·.1) := by
  obtain ⟨w, tokens, hdef, hkind, htokens, t, ht, hk, rfl⟩ := hrefers
  cases ((hdefs name).symm.trans hopens.lookup_eq).symm.trans hdef
  cases hopens.parse_eq.symm.trans hkind
  obtain ⟨s', y, hother, hy⟩ := exists_enters hx htokens ht hk
  have hkept := (hother.extends_compute (enter_extends defs depth)).lookup
    (lookup_of_enter_eq_ok hy)
  exact isSome_lookup.1 (Option.isSome_iff_exists.2 ⟨y, hkept⟩)

/-- The values that a name adds when it is entered are in order. -/
theorem enter_inOrder (hdefs : ∀ name, defs.lookup name = inForce vars name) (depth : Nat)
    (name : String) (h : InOrder vars s.cache) : InOrder vars (enter defs depth name s).2.cache := by
  induction depth, name, s using enter_induction with
  | kept depth name s outcome _ _ => exact h
  | cut name s => exact h
  | computed depth name s v kind hopens ih =>
    have hcomputed : InOrder vars
        (compute (enter defs depth) defs v kind (s.push name)).2.cache :=
      compute_induction (P := fun s => InOrder vars s.cache) h fun other s' _ => ih other s'
    cases hx : (compute (enter defs depth) defs v kind (s.push name)).1 with
    | error e => rwa [leave_cache_of_error hx]
    | ok x =>
      have hextends : (s.push name).Extends
          (compute (enter defs depth) defs v kind (s.push name)).2 :=
        compute_extends (enter_extends defs depth) v kind (s.push name)
      -- `name` has been marked all the time, so that it has no value yet.
      have hnew := hextends.lookup_eq_none (s.mem_push name) hopens.admits.lookup_eq
      rw [leave_cache_of_ok hx]
      exact .cons (lookup_eq_none_iff.1 hnew) (fun other => mem_cache_of_refers hdefs hopens hx)
        hcomputed

/-- Nothing is kept of a name that is being computed. -/
theorem Activation.lookup_eq_none (h : Activation defs limit opened depth name s) :
    ∀ k ∈ s.inProgress, s.cache.lookup k = none := by
  induction h with
  | @outer before _ _ h =>
    intro k hk
    rw [(settled_extends defs limit before {}).inProgress_eq] at hk
    cases hk
  | @inner opened depth user other s s' v kind h hopens henters ih =>
    have hextends := henters.extends (enter_extends defs depth)
    intro k hk
    rw [hextends.inProgress_eq] at hk
    refine hextends.lookup_eq_none hk ?_
    rw [SearchState.push_inProgress hopens.admits, List.mem_cons] at hk
    obtain rfl | hk := hk
    · exact hopens.admits.lookup_eq
    · exact ih k hk

end Enter

/-! ### The end of a resolution -/

/-- The state in which a resolution ends. -/
def finished (defs : Definitions) (limit : Nat) : SearchState := settled defs limit defs.names {}

section Finished

variable {defs : Definitions} {limit depth : Nat} {opened : List String} {name : String}
  {s : SearchState}

theorem leave_cache_suffix (name : String) (result : Except SearchFailure Float × SearchState) :
    result.2.cache <:+ (leave name result).2.cache := by
  obtain ⟨outcome, s⟩ := result
  cases outcome with
  | error e => exact List.suffix_rfl
  | ok x => exact List.suffix_cons (name, x) s.cache

theorem settled_cache_suffix {before after : List String} (h : defs.names = before ++ after) :
    (settled defs limit before {}).cache <:+ (finished defs limit).cache := by
  rw [finished, h, settled_append]
  exact (settled_extends _ _ after _).suffix

/-- What a call leaves is there in the end. -/
theorem Activation.cache_suffix (h : Activation defs limit opened depth name s) :
    (enter defs depth name s).2.cache <:+ (finished defs limit).cache := by
  induction h with
  | @outer before after name h =>
    have hsettled : settled defs limit (before ++ [name]) {} =
        (enter defs limit name (settled defs limit before {})).2 :=
      settled_append before [name] {}
    have hnames : defs.names = (before ++ [name]) ++ after := by simp [h]
    rw [← hsettled]
    exact settled_cache_suffix hnames
  | @inner opened depth user other s s' v kind h hopens henters ih =>
    rw [enter_succ hopens] at ih
    exact ((henters.extends_compute (enter_extends defs depth)).suffix.trans
      (leave_cache_suffix user _)).trans ih

theorem Reachable.cache_suffix (h : Reachable defs limit s) :
    s.cache <:+ (finished defs limit).cache := by
  cases h with
  | outside h => exact settled_cache_suffix h
  | entry h => exact (enter_extends _ _ _ _).suffix.trans h.cache_suffix
  | exit h => exact h.cache_suffix
  | @begun _ depth name s _ _ h _ =>
    have hentry : s.cache <:+ _ :=
      (enter_extends defs (depth + 1) name s).suffix.trans h.cache_suffix
    exact hentry
  | computed h hopens =>
    have hexit := h.cache_suffix
    rw [enter_succ hopens] at hexit
    exact (leave_cache_suffix _ _).trans hexit
  | stored h hopens hx =>
    have hexit := h.cache_suffix
    rwa [enter_succ hopens, leave_cache_of_ok hx] at hexit

end Finished

section Values

variable {vars : List Variable} {limit : Nat} {name : String} {x : Float}

theorem finished_inOrder (vars : List Variable) (limit : Nat) :
    InOrder vars (finished (.ofList vars) limit).cache :=
  settled_induction (P := fun s => InOrder vars s.cache) _ .nil fun name _ =>
    enter_inOrder (lookup_ofList vars) limit name

theorem entry_eq_ok {outcome : Except SearchFailure Float} :
    entry name outcome = .ok x ↔ outcome = .ok x := by
  obtain (e | _) | y := outcome <;> simp [entry]

/-- A value of the list is kept in the end. -/
theorem mem_finished_of_mem_values (h : (name, x) ∈ (resolveWithin limit vars).values) :
    (name, x) ∈ (finished (.ofList vars) limit).cache := by
  obtain ⟨before, after, hnames, hx⟩ := of_mem_resolveNames (mem_values.1 h)
  have hcall : Activation (.ofList vars) limit [] limit name
      (settled (.ofList vars) limit before {}) := .outer hnames
  have hkept := lookup_of_enter_eq_ok (entry_eq_ok.1 hx.symm)
  exact hcall.cache_suffix.subset (mem_of_lookup hkept)

/-- What is kept in the end is the value of its name, so that it is found for the name unless the
name is charged with a chain that is too long. -/
theorem mem_values_or_of_mem_finished (h : (name, x) ∈ (finished (.ofList vars) limit).cache) :
    (name, x) ∈ (resolveWithin limit vars).values ∨
      (name, .error (.invalidExpression (.depth name))) ∈ (resolveWithin limit vars).entries := by
  have hlookup : (finished (.ofList vars) limit).cache.lookup name = some x :=
    lookup_of_mem (finished_inOrder vars limit).nodup h
  have hx : HasValue vars name x := sound_settled (lookup_ofList vars) _ name x hlookup
  obtain ⟨entry, hentry⟩ := exists_entry.2 hx.isSome_inForce
  obtain hplain | ⟨hdeep, -⟩ := mem_entries hentry
  · rw [hplain, plainSearch_of_hasValue hx (by simp)] at hentry
    exact .inl (mem_values.2 hentry)
  · exact .inr (hdeep ▸ hentry)

end Values

/-- **Values are kept in order, once for each name**, where all kinds are known. In every state of a
resolution, what is kept is part of what is kept in the end, no name is kept twice, and all that the
definition of a name lists has been kept before the name. Nothing is kept of a name that is being
computed, when a name is entered as when that ends. In the end, what is kept are the values of the
list, and values of names that were charged with a chain that is too long. -/
theorem values_kept_in_order {vars : List Variable} {limit : Nat}
    (hkinds : ∀ v ∈ vars, ∃ kind, v.kind = .known kind) :
    (∀ s, Reachable (.ofList vars) limit s →
      s.cache <:+ (finished (.ofList vars) limit).cache ∧ (s.cache.map (·.1)).Nodup ∧
      ∀ later name x earlier, s.cache = later ++ (name, x) :: earlier →
        ∀ other ∈ dependenciesOf vars name, other ∈ earlier.map (·.1)) ∧
    (∀ opened depth name s, Activation (.ofList vars) limit opened depth name s →
      (∀ k ∈ s.inProgress, k ∉ s.cache.map (·.1)) ∧
      ∀ k ∈ (enter (.ofList vars) depth name s).2.inProgress,
        k ∉ (enter (.ofList vars) depth name s).2.cache.map (·.1)) ∧
    ∀ name x, (name, x) ∈ (resolveWithin limit vars).values ↔
      (name, x) ∈ (finished (.ofList vars) limit).cache ∧
        (name, .error (.invalidExpression (.depth name))) ∉ (resolveWithin limit vars).entries := by
  refine ⟨fun s hs => ?_, fun opened depth name s h => ?_, fun name x => ⟨fun h => ?_, ?_⟩⟩
  · have hsuffix := hs.cache_suffix
    have hinOrder : InOrder vars s.cache := by
      have hfinished := finished_inOrder vars limit
      obtain ⟨later, hlater⟩ := hsuffix
      rw [← hlater] at hfinished
      exact hfinished.of_append
    refine ⟨hsuffix, hinOrder.nodup, fun later name x earlier hcache other hother => ?_⟩
    rw [hcache] at hinOrder
    exact hinOrder.mem_of_refers ((dependsOn_iff_refers hkinds).1 hother)
  · have hentry : ∀ k ∈ s.inProgress, s.cache.lookup k = none := h.lookup_eq_none
    have hextends := enter_extends (.ofList vars) depth name s
    refine ⟨fun k hk => lookup_eq_none_iff.1 (hentry k hk), fun k hk => ?_⟩
    rw [hextends.inProgress_eq] at hk
    exact lookup_eq_none_iff.1 (hextends.lookup_eq_none hk (hentry k hk))
  · refine ⟨mem_finished_of_mem_values h, fun hdeep => ?_⟩
    cases unique_of_nodup (nodup_keys_entries limit vars) _ _ (mem_values.1 h) hdeep
  · rintro ⟨h, hdeep⟩
    exact (mem_values_or_of_mem_finished h).resolve_right hdeep

/-- Two variables that share two others, and one that fails after it has used them. -/
def shared : List Variable :=
  [⟨"TOTAL", .known .dynamic, "NET + TAX"⟩, ⟨"LOST", .known .dynamic, "NET / LOST"⟩,
    ⟨"TAX", .known .dynamic, "UNITS - NET"⟩, ⟨"NET", .known .dynamic, "UNITS * UNITS"⟩,
    ⟨"UNITS", .known .constant, "3"⟩]

/-- `TAX` is kept after `NET`, which was computed for `TOTAL`, and all that is kept are values. -/
theorem values_kept_in_order_shared : (∀ v ∈ shared, ∃ kind, v.kind = .known kind) ∧
    (finished (.ofList shared) chainLimit).cache.map (·.1) = ["TOTAL", "TAX", "NET", "UNITS"] ∧
    (∀ other ∈ dependenciesOf shared "TAX", other ∈ ["NET", "UNITS"]) ∧
    ("TAX", -6) ∈ (resolve shared).values := by
  have hkinds : ∀ v ∈ shared, ∃ kind, v.kind = .known kind := by simp [shared]
  have hcache : (finished (.ofList shared) chainLimit).cache =
      [("TOTAL", 3)] ++ ("TAX", -6) :: [("NET", 9), ("UNITS", 3)] := by decide +kernel
  obtain ⟨hstates, -, hvalues⟩ := @values_kept_in_order _ chainLimit hkinds
  have hlast : Reachable (.ofList shared) chainLimit (finished (.ofList shared) chainLimit) :=
    .outside (List.append_nil _).symm
  obtain ⟨-, -, horder⟩ := hstates _ hlast
  refine ⟨hkinds, by rw [hcache]; rfl, horder _ "TAX" _ _ hcache, (hvalues "TAX" (-6)).2 ⟨?_, ?_⟩⟩
  · rw [hcache]
    simp
  · decide +kernel

/-! ### A name that is kept although its chain was too long -/

/-- A name for each link of a chain. -/
def rung (i : Nat) : String := String.ofList (List.replicate (i + 1) 'A')

/-- The links of a chain: a constant, and above it variables each of which is the one below. -/
def link : Nat → Variable
  | 0 => ⟨rung 0, .known .constant, "1"⟩
  | i + 1 => ⟨rung (i + 1), .known .dynamic, rung i⟩

/-- A chain that is told from its upper end and then from its lower one, with one more link at the
end. -/
def ladder (height : Nat) : List Variable :=
  (height :: List.range height ++ [height + 1]).map link

section Ladder

variable {height i : Nat}

theorem rung_injective : Function.Injective rung := fun i j h => by
  have hlength := congrArg String.length h
  simpa [rung] using hlength

theorem name_link (i : Nat) : (link i).name = rung i := by
  cases i <;> rfl

theorem tokenize_rung (i : Nat) :
    tokenize (rung i) = .ok [{ kind := .identifier, text := rung i, position := some 0 }] := by
  refine tokenize_of_isNameChars ?_
  rw [rung, String.toList_ofList, List.replicate_succ, isNameChars, List.all_replicate]
  have hletter : isNameStart 'A' = true ∧ isNameChar 'A' = true := by decide
  simp [hletter]

theorem mem_ladder {v : Variable} : v ∈ ladder height ↔ ∃ i ≤ height + 1, link i = v := by
  rw [ladder, List.mem_map]
  refine exists_congr fun i => and_congr_left fun _ => ?_
  simp only [List.cons_append, List.mem_cons, List.mem_append, List.mem_range,
    List.not_mem_nil, or_false]
  omega

theorem inForce_ladder (h : i ≤ height + 1) : inForce (ladder height) (rung i) = some (link i) := by
  refine find?_eq_some_of_unique (List.mem_reverse.2 (mem_ladder.2 ⟨i, h, rfl⟩))
    (by simp [name_link]) fun v hv hname => ?_
  obtain ⟨j, -, rfl⟩ := mem_ladder.1 (List.mem_reverse.1 hv)
  rw [name_link, beq_iff_eq] at hname
  rw [rung_injective hname]

/-- Every link has the value of the lowest one. -/
theorem hasValue_ladder (h : i ≤ height + 1) : HasValue (ladder height) (rung i) 1 := by
  induction i with
  | zero => exact .constant (inForce_ladder h) rfl (by decide +kernel) (by decide +kernel)
  | succ i ih =>
    have hbelow : HasValue (ladder height) (rung i) 1 := ih (by omega)
    have heval : evaluateTokens [Token.ofValue 1 (some 0)] = .ok 1 := by decide +kernel
    exact @HasValue.dynamic _ _ _ _ (fun _ => 1) _ (inForce_ladder h) rfl (tokenize_rung i)
      (by simp) (by simpa using hbelow) heval

theorem refers_ladder {other : String} (h : i ≤ height + 1)
    (hrefers : Refers (ladder height) (rung i) other) : ∃ j, i = j + 1 ∧ other = rung j := by
  obtain ⟨v, tokens, hdef, hkind, htokens, t, ht, hk, rfl⟩ := hrefers
  cases (inForce_ladder h).symm.trans hdef
  cases i with
  | zero => cases hkind
  | succ j =>
    cases (tokenize_rung j).symm.trans htokens
    exact ⟨j, rfl, congrArg Token.text (List.mem_singleton.1 ht)⟩

theorem lookup_ladder (h : i ≤ height + 1) :
    (Definitions.ofList (ladder height)).lookup (rung i) = some (link i) :=
  (lookup_ofList _ _).trans (inForce_ladder h)

theorem opens_ladder {s : SearchState} (h : i ≤ height + 1) (hcache : s.cache = [])
    (hmark : rung i ∉ s.inProgress) :
    ∃ kind, Opens (.ofList (ladder height)) s (rung i) (link i) kind := by
  have hadmits : s.Admits (rung i) := ⟨by rw [hcache]; rfl, hmark⟩
  cases i with
  | zero => exact ⟨.constant, hadmits, lookup_ladder h, rfl⟩
  | succ j => exact ⟨.dynamic, hadmits, lookup_ladder h, rfl⟩

/-- A link that stands as high as the depth is cut off, if nothing is kept. -/
theorem tooDeep_ladder {depth : Nat} {s : SearchState} (hdepth : depth ≤ i) (h : i ≤ height + 1)
    (hcache : s.cache = []) (hmarks : ∀ k ≤ i, rung k ∉ s.inProgress) :
    (enter (.ofList (ladder height)) depth (rung i) s).1 = .error .tooDeep := by
  induction depth generalizing i s with
  | zero =>
    obtain ⟨kind, hopens⟩ := opens_ladder h hcache (hmarks i le_rfl)
    rw [enter_zero hopens]
  | succ depth ih =>
    obtain ⟨j, rfl⟩ := Nat.exists_eq_add_one_of_ne_zero (show i ≠ 0 by omega)
    obtain ⟨kind, hopens⟩ := opens_ladder h hcache (hmarks (j + 1) le_rfl)
    cases hopens.parse_eq
    have hj : j ≤ height + 1 := by omega
    have hbelow : ((Definitions.ofList (ladder height)).lookup (rung j)).isSome = true := by
      rw [lookup_ladder hj]
      rfl
    have hmarks' : ∀ k ≤ j, rung k ∉ (s.push (rung (j + 1))).inProgress := by
      intro k hk
      rw [SearchState.push_inProgress hopens.admits, List.mem_cons, not_or]
      exact ⟨fun heq => by have := rung_injective heq; omega, hmarks k (by omega)⟩
    have hcut : (enter (.ofList (ladder height)) depth (rung j) (s.push (rung (j + 1)))).1 =
        .error .tooDeep := ih (s := s.push (rung (j + 1))) (by omega) hj hcache hmarks'
    have henters : Enters (enter (.ofList (ladder height)) depth) (.ofList (ladder height))
        (link (j + 1)) (s.push (rung (j + 1))) .dynamic (rung j) (s.push (rung (j + 1))) :=
      .dynamic (tokenize_rung j) (.here rfl hbelow)
    rw [enter_succ hopens, leave_fst]
    exact henters.eq_error hcut

/-- A link that is not cut off has its value. -/
theorem enter_ladder_eq_ok {names : List String} {depth : Nat} (h : i ≤ height + 1)
    (hne : (enter (.ofList (ladder height)) depth (rung i)
      (settled (.ofList (ladder height)) depth names {})).1 ≠ .error .tooDeep) :
    (enter (.ofList (ladder height)) depth (rung i)
      (settled (.ofList (ladder height)) depth names {})).1 = .ok 1 := by
  obtain hplain | ⟨htooDeep, -⟩ := (enter_settled_ends (lookup_ofList (ladder height)) names
    (rung i)).agrees.eq_or_tooDeep
  · rw [hplain, plainSearch_of_hasValue (hasValue_ladder h) (by simp)]
    rfl
  · exact absurd htooDeep hne

theorem names_ladder (height : Nat) : (Definitions.ofList (ladder height)).names =
    (height :: List.range height ++ [height + 1]).map rung := by
  have hnames : (ladder height).map (·.name) =
      (height :: List.range height ++ [height + 1]).map rung := by
    rw [ladder, List.map_map]
    exact List.map_congr_left fun i _ => name_link i
  have hnodup : (height :: List.range height ++ [height + 1]).Nodup := by
    simp [List.nodup_append, List.nodup_range]
    omega
  rw [names_ofList, hnames, eraseDups_of_nodup (hnodup.map rung_injective)]

/-- The links below the first one are kept, one after the other, whatever became of the first
one. -/
theorem lookup_settled_ladder {depth : Nat} (hi : i ≤ height) : ∀ j < i,
    (settled (.ofList (ladder height)) (depth + 1) ((height :: List.range i).map rung)
      {}).cache.lookup (rung j) = some 1 := by
  induction i with
  | zero => simp
  | succ i ih =>
    intro j hj
    have hrange : (height :: List.range (i + 1)).map rung =
        (height :: List.range i).map rung ++ [rung i] := by
      simp [List.range_succ]
    rw [hrange, settled_append]
    have hkept := ih (by omega)
    obtain hj | rfl := Nat.lt_succ_iff_lt_or_eq.1 hj
    · exact (settled_extends _ _ _ _).lookup (hkept j hj)
    · refine lookup_of_enter_eq_ok (enter_ladder_eq_ok (by omega) ?_)
      refine ne_tooDeep_of_kept (lookup_ofList _) fun other hrefers => ?_
      obtain ⟨k, rfl, rfl⟩ := refers_ladder (by omega) hrefers
      rw [hkept k (by omega)]
      rfl

/-- The last link is not cut off: inside it the first one is computed, which finds the value of the
link below it. -/
theorem ne_tooDeep_last (depth : Nat) :
    (enter (.ofList (ladder (depth + 2))) (depth + 2) (rung (depth + 3))
      (settled (.ofList (ladder (depth + 2))) (depth + 2)
        (((depth + 2) :: List.range (depth + 2)).map rung) {})).1 ≠ .error .tooDeep := by
  intro hcut
  obtain ⟨first, s', hrefers, hs', hcut⟩ := exists_refers_of_tooDeep (lookup_ofList _) hcut
  obtain ⟨_, hfirst, rfl⟩ := refers_ladder le_rfl hrefers
  cases hfirst
  refine ne_tooDeep_of_kept (lookup_ofList _) (fun other hrefers => ?_) hcut
  obtain ⟨_, hbelow, rfl⟩ := refers_ladder (by omega) hrefers
  cases hbelow
  rw [hs'.lookup (lookup_settled_ladder le_rfl (depth + 1) (by omega))]
  rfl

/-- The last link has its value in the end, and so the first one is kept. -/
theorem mem_finished_ladder (depth : Nat) : rung (depth + 2) ∈
    (finished (.ofList (ladder (depth + 2))) (depth + 2)).cache.map (·.1) := by
  have hlast := lookup_of_enter_eq_ok (enter_ladder_eq_ok le_rfl (ne_tooDeep_last depth))
  have hfinished : finished (.ofList (ladder (depth + 2))) (depth + 2) =
      (enter (.ofList (ladder (depth + 2))) (depth + 2) (rung (depth + 3))
        (settled (.ofList (ladder (depth + 2))) (depth + 2)
          (((depth + 2) :: List.range (depth + 2)).map rung) {})).2 := by
    rw [finished, names_ladder, List.map_append, settled_append]
    rfl
  rw [← hfinished] at hlast
  obtain ⟨later, earlier, hsplit⟩ := List.append_of_mem (mem_of_lookup hlast)
  have horder := finished_inOrder (ladder (depth + 2)) (depth + 2)
  rw [hsplit] at horder
  have hrefers : Refers (ladder (depth + 2)) (rung (depth + 3)) (rung (depth + 2)) :=
    ⟨link (depth + 3), _, inForce_ladder le_rfl, rfl, tokenize_rung (depth + 2), _,
      List.mem_singleton_self _, rfl, rfl⟩
  rw [hsplit, List.map_append, List.map_cons]
  exact List.mem_append_right _ (List.mem_cons_of_mem _ (horder.mem_of_refers hrefers))

/-- The first link is charged with a chain that is too long. -/
theorem mem_entries_ladder (height : Nat) :
    (rung height, .error (.invalidExpression (.depth (rung height)))) ∈
      (resolveWithin height (ladder height)).entries := by
  have hcut : (enter (.ofList (ladder height)) height (rung height) {}).1 = .error .tooDeep :=
    tooDeep_ladder le_rfl (by omega) rfl (by simp)
  rw [resolveWithin, names_ladder, List.cons_append, List.map_cons, resolveNames]
  exact List.mem_cons.2 (.inl (by rw [hcut]; rfl))

end Ladder

/-- The first link of a ladder that is as high as the longest chain that is followed has no value,
although one is kept in the end. -/
theorem exists_kept_without_value :
    (∀ v ∈ ladder chainLimit, ∃ kind, v.kind = .known kind) ∧
      rung chainLimit ∈ (finished (.ofList (ladder chainLimit)) chainLimit).cache.map (·.1) ∧
      rung chainLimit ∉ (resolve (ladder chainLimit)).values.map (·.1) := by
  refine ⟨fun v hv => ?_, mem_finished_ladder 488, fun hvalue => ?_⟩
  · obtain ⟨i, -, rfl⟩ := mem_ladder.1 hv
    cases i with
    | zero => exact ⟨.constant, rfl⟩
    | succ i => exact ⟨.dynamic, rfl⟩
  · obtain ⟨x, hx⟩ := mem_keys_values.1 hvalue
    cases unique_of_nodup (nodup_keys_entries chainLimit (ladder chainLimit)) _ _ hx
      (mem_entries_ladder chainLimit)

end FormulaBook
