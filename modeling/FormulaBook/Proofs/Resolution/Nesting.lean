import FormulaBook.Proofs.Resolution.Activations

/-!
# How deep a search can go

A name is computed inside others only if it is none of them, so no more names are computed inside
each other than are defined. With room for so many, no search is cut off, and more room changes
nothing.

* `enter_eq_of_ne_tooDeep`: more room changes nothing where there was enough;
* `ne_tooDeep_of_offPath_le`: there is enough room for all names that are not being computed;
* `Activation.length_add_offPath`: the names that are being computed, and those that are not;
* `Activation.ne_tooDeep`: no call is cut off where there is room for all names;
* `ne_depth_of_card_le`: a list for whose names there is room;
* `nesting_bounded`: how many names are computed inside each other.
-/

namespace FormulaBook

section Room

variable {vars : List Variable} {defs : Definitions} {depth : Nat} {name : String}
  {s : SearchState}

/-- A search that is not cut off comes to the same with more room. -/
theorem enter_eq_of_ne_tooDeep (h : (enter defs depth name s).1 ≠ .error .tooDeep) {room : Nat}
    (hroom : depth ≤ room) : enter defs room name s = enter defs depth name s := by
  induction depth, name, s using enter_induction generalizing room with
  | kept depth name s outcome hkept _ => exact hkept room
  | cut name s => exact absurd rfl h
  | computed depth name s v kind hopens ih =>
    obtain ⟨room, rfl⟩ := Nat.exists_eq_add_one_of_ne_zero (show room ≠ 0 by omega)
    rw [leave_fst] at h
    rw [enter_succ hopens]
    -- No name that is entered inside is cut off, since that would be the outcome.
    refine congrArg (leave name) (compute_congr_enter fun other s' hother => ?_)
    exact ih other s' (fun hcut => h (hother.eq_error hcut)) (by omega)

theorem offPath_push_lt {v : Variable} {kind : VariableKind}
    (hdefs : ∀ name, defs.lookup name = inForce vars name) (hopens : Opens defs s name v kind) :
    offPath vars (s.push name).inProgress < offPath vars s.inProgress := by
  have hlt := offPath_lt ((hdefs name).symm.trans hopens.lookup_eq) hopens.admits.not_mem
  have hsame : offPath vars (s.push name).inProgress = offPath vars (s.inProgress ++ [name]) :=
    offPath_congr vars fun k => by
      rw [SearchState.push_inProgress hopens.admits]
      simp [or_comm]
  rwa [hsame]

/-- A search with room for all names that are not being computed is not cut off. -/
theorem ne_tooDeep_of_offPath_le (hdefs : ∀ name, defs.lookup name = inForce vars name)
    (h : offPath vars s.inProgress ≤ depth) : (enter defs depth name s).1 ≠ .error .tooDeep := by
  intro hcut
  induction depth generalizing name s with
  | zero =>
    obtain ⟨v, kind, hopens⟩ := opens_of_tooDeep hcut
    have hlt := offPath_push_lt hdefs hopens
    omega
  | succ depth ih =>
    obtain ⟨v, kind, hopens⟩ := opens_of_tooDeep hcut
    have hlt := offPath_push_lt hdefs hopens
    obtain ⟨other, s', -, hs', hcut⟩ := exists_refers_of_tooDeep hdefs hcut
    refine ih ?_ hcut
    rw [hs'.inProgress_eq]
    omega

end Room

/-! ### The calls of a resolution -/

section Calls

variable {vars : List Variable} {limit depth : Nat} {opened : List String} {name : String}
  {s : SearchState}

/-- The names that are being computed are defined. -/
theorem Activation.mem_names_of_mem_opened
    (h : Activation (.ofList vars) limit opened depth name s) : ∀ k ∈ opened, k ∈ vars.map (·.name) := by
  induction h with
  | outer h => simp
  | inner h hopens henters ih =>
    exact List.forall_mem_cons.2 ⟨mem_names_ofList.1 (mem_names.2 h.isSome_lookup), ih⟩

/-- The names that are being computed and the names that are not make up the names. -/
theorem length_add_offPath {path : List String} (hnodup : path.Nodup)
    (hpath : ∀ k ∈ path, k ∈ vars.map (·.name)) :
    path.length + offPath vars path = (vars.map (·.name)).toFinset.card := by
  have hsubset : path.toFinset ⊆ (vars.map (·.name)).toFinset := fun k hk =>
    List.mem_toFinset.2 (hpath k (List.mem_toFinset.1 hk))
  rw [offPath, Finset.card_sdiff_of_subset hsubset, List.toFinset_card_of_nodup hnodup]
  have hle := Finset.card_le_card hsubset
  rw [List.toFinset_card_of_nodup hnodup] at hle
  omega

theorem Activation.length_add_offPath (h : Activation (.ofList vars) limit opened depth name s) :
    opened.length + offPath vars s.inProgress = (vars.map (·.name)).toFinset.card := by
  rw [h.stack_eq.2]
  exact FormulaBook.length_add_offPath h.entered.nodup h.mem_names_of_mem_opened

/-- A name that passes the checks is one more than those that are being computed. -/
theorem Activation.length_lt (h : Activation (.ofList vars) limit opened depth name s)
    (hname : s.Admits name) : opened.length < (vars.map (·.name)).toFinset.card := by
  have hnodup : (name :: opened).Nodup :=
    List.nodup_cons.2 ⟨h.not_mem_opened hname, h.entered.nodup⟩
  have hdefined : ∀ k ∈ name :: opened, k ∈ vars.map (·.name) :=
    List.forall_mem_cons.2 ⟨mem_names_ofList.1 (mem_names.2 h.isSome_lookup),
      h.mem_names_of_mem_opened⟩
  have htotal := FormulaBook.length_add_offPath hnodup hdefined
  rw [List.length_cons] at htotal
  omega

theorem entry_eq_depth {outcome : Except SearchFailure Float} {other : String}
    (h : entry name outcome = .error (.invalidExpression (.depth other))) :
    outcome = .error .tooDeep ∨ outcome = .error (.error (.invalidExpression (.depth other))) := by
  obtain (e | _) | x := outcome
  · cases (h : Except.error e = _)
    exact .inr rfl
  · exact .inl rfl
  · cases h

/-- Where there is room for all names, no call is cut off. -/
theorem Activation.ne_tooDeep (h : Activation (.ofList vars) limit opened depth name s)
    (hlimit : (vars.map (·.name)).toFinset.card ≤ limit) :
    (enter (.ofList vars) depth name s).1 ≠ .error .tooDeep := by
  have htotal := h.length_add_offPath
  have hroom := h.length_add_depth
  exact ne_tooDeep_of_offPath_le (lookup_ofList vars) (by omega)

/-- Where there is room for all names, no chain is too long. -/
theorem ne_depth_of_card_le (h : (vars.map (·.name)).toFinset.card ≤ limit) :
    ∀ p ∈ (resolveWithin limit vars).entries, ∀ other,
      p.2 ≠ .error (.invalidExpression (.depth other)) := by
  rintro ⟨name, r⟩ hentry other hdepth
  obtain ⟨before, after, hnames, rfl⟩ := of_mem_resolveNames hentry
  obtain hcut | hown := entry_eq_depth hdepth
  · exact (Activation.outer hnames).ne_tooDeep h hcut
  · exact enter_ne_depth _ _ _ _ _ hown

end Calls

/-- **No more names are computed inside each other than are defined**, whatever refers to what. A
name that passes the checks when it is entered is one more than those that are being computed, and
these are at most as many as there are names. With as much room as names are left, every call ends
with a result that no limit has decided, and it is the same with any more room. So in a list with no
more names than may be computed inside each other no call is cut off and no chain is too long. -/
theorem nesting_bounded (vars : List Variable) :
    (∀ limit opened depth name s, Activation (.ofList vars) limit opened depth name s →
      (s.Admits name → opened.length < (vars.map (·.name)).toFinset.card) ∧
      opened.length ≤ (vars.map (·.name)).toFinset.card ∧
      ∃ result, result.1 ≠ .error .tooDeep ∧
        ∀ room, (vars.map (·.name)).toFinset.card ≤ opened.length + room →
          enter (.ofList vars) room name s = result) ∧
    (∀ limit, (vars.map (·.name)).toFinset.card ≤ limit →
      (∀ opened depth name s, Activation (.ofList vars) limit opened depth name s →
        (enter (.ofList vars) depth name s).1 ≠ .error .tooDeep) ∧
      ∀ p ∈ (resolveWithin limit vars).entries, ∀ other,
        p.2 ≠ .error (.invalidExpression (.depth other))) ∧
    ((vars.map (·.name)).toFinset.card ≤ 300 → ∀ p ∈ (resolve vars).entries, ∀ other,
      p.2 ≠ .error (.invalidExpression (.depth other))) := by
  refine ⟨fun limit opened depth name s h => ?_, fun limit hlimit => ?_, fun h => ?_⟩
  · have htotal := h.length_add_offPath
    have hroom : (enter (.ofList vars) (offPath vars s.inProgress) name s).1 ≠ .error .tooDeep :=
      ne_tooDeep_of_offPath_le (lookup_ofList vars) le_rfl
    refine ⟨h.length_lt, by omega, _, hroom, fun room hle => ?_⟩
    exact enter_eq_of_ne_tooDeep hroom (by omega)
  · exact ⟨fun _ _ _ _ h => h.ne_tooDeep hlimit, ne_depth_of_card_le hlimit⟩
  · exact ne_depth_of_card_le (h.trans (by decide))

/-- `B` is computed inside `C`, and refers to it again. -/
theorem nesting_bounded_tangled :
    Activation (.ofList tangled) chainLimit ["C"] 489 "B" insideC ∧ insideC.Admits "B" ∧
    (tangled.map (·.name)).toFinset.card = 6 ∧
    enter (.ofList tangled) 1000 "B" insideC = enter (.ofList tangled) 5 "B" insideC ∧
    ∀ p ∈ (resolve tangled).entries, ∀ other, p.2 ≠ .error (.invalidExpression (.depth other)) := by
  have hcard : (tangled.map (·.name)).toFinset.card = 6 := by decide
  obtain ⟨hcalls, -, hsmall⟩ := nesting_bounded tangled
  obtain ⟨-, -, result, -, hresult⟩ := hcalls _ _ _ _ _ activation_insideC
  rw [hcard] at hresult hsmall
  refine ⟨activation_insideC, opens_insideC.admits, hcard, ?_, hsmall (by decide)⟩
  rw [hresult 1000 (by decide), hresult 5 (by decide)]

end FormulaBook
