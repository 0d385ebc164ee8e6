/-!
# Outcomes that may fail

How a computation with steps that may fail came to its outcome, and what a row of such steps does
when each of them commutes with a change of the state.

* `bind_eq_ok`, `bind_eq_error`, `map_eq_ok`, `map_eq_error`, `mapError_eq_ok`,
  `mapError_eq_error`: the outcome of two steps, or of one whose value or error is told otherwise;
* `exists_leaving_step`, `foldlM_invariant`: what a row of steps keeps, and where it is lost;
* `foldlM_error`, `mapM_eq_error`: the error of a row of steps is that of one of them;
* `exists_mem_of_mapM`, `mapM_eq_error_of_mem`: what one step says of the row;
* `foldlM_frame`: steps that do the same on a changed state when they succeed;
* `foldlM_map`: steps that do the same on a changed state, with the same errors;
* `bind_mapError_congr`, `mapM_mapError_congr`: steps that do the same when their errors are told
  in common words;
* `Translates`: outcomes that are the same once values and errors are told in other words, with
  `Translates.bind`, `Translates.foldlM` and `Translates.mapM`;
* `run_bind`, `run_liftM_bind`, `run_tryCatch`: steps that change a state, also when they fail.
-/

namespace FormulaBook

variable {ε ε' δ α β σ τ : Type}

theorem bind_eq_ok {first : Except ε α} {next : α → Except ε β} {y : β} :
    first.bind next = .ok y ↔ ∃ x, first = .ok x ∧ next x = .ok y := by
  cases first <;> simp [Except.bind]

theorem bind_eq_error {first : Except ε α} {next : α → Except ε β} {e : ε} :
    first.bind next = .error e ↔ first = .error e ∨ ∃ x, first = .ok x ∧ next x = .error e := by
  cases first <;> simp [Except.bind]

theorem map_eq_ok {first : Except ε α} {f : α → β} {y : β} :
    first.map f = .ok y ↔ ∃ x, first = .ok x ∧ f x = y := by
  cases first <;> simp [Except.map]

theorem map_eq_error {first : Except ε α} {f : α → β} {e : ε} :
    first.map f = .error e ↔ first = .error e := by
  cases first <;> simp [Except.map]

theorem mapError_eq_ok {r : Except ε α} {words : ε → δ} {x : α} :
    r.mapError words = .ok x ↔ r = .ok x := by
  cases r with
  | ok y =>
    show (Except.ok y : Except δ α) = .ok x ↔ _
    simp
  | error e => exact iff_of_false (fun h => by cases h) (fun h => by cases h)

theorem mapError_eq_error {r : Except ε α} {words : ε → δ} {e : δ} :
    r.mapError words = .error e ↔ ∃ cause, r = .error cause ∧ words cause = e := by
  cases r with
  | ok y =>
    refine iff_of_false (fun h => by cases h) ?_
    rintro ⟨cause, h, -⟩
    cases h
  | error cause =>
    show Except.error (words cause) = .error e ↔ _
    simp

theorem map_eq_bind (first : Except ε α) (f : α → β) :
    first.map f = first.bind fun a => .ok (f a) := by
  cases first <;> rfl

theorem mem_toOption {r : Except ε α} {a : α} : a ∈ r.toOption ↔ r = .ok a := by
  cases r <;> simp [Except.toOption, eq_comm]

/-- A run that begins with a property and ends without it has a first step that loses it. -/
theorem exists_leaving_step {P : σ → Prop} {step : σ → τ → Except ε σ} {l : List τ} {s s' : σ}
    (h : l.foldlM step s = .ok s') (hs : P s) (hs' : ¬ P s') : ∃ before t after m m',
      l = before ++ t :: after ∧ before.foldlM step s = .ok m ∧ P m ∧ step m t = .ok m' ∧
        ¬ P m' := by
  induction l generalizing s with
  | nil =>
    cases h
    exact absurd hs hs'
  | cons t l ih =>
    rw [List.foldlM_cons] at h
    obtain ⟨m, hm, hrest⟩ := bind_eq_ok.1 h
    by_cases hkeeps : P m
    · obtain ⟨before, u, after, k, k', rfl, hbefore, hk, hu, hk'⟩ := ih hrest hkeeps
      refine ⟨t :: before, u, after, k, k', rfl, ?_, hk, hu, hk'⟩
      rw [List.foldlM_cons, hm]
      exact hbefore
    · exact ⟨[], t, l, s, m, rfl, rfl, hs, hm, hkeeps⟩

/-- What every step keeps, a run keeps. -/
theorem foldlM_invariant {P : σ → Prop} {step : σ → τ → Except ε σ} {l : List τ}
    (hstep : ∀ t ∈ l, ∀ s s', P s → step s t = .ok s' → P s') {s s' : σ} (hs : P s)
    (h : l.foldlM step s = .ok s') : P s' := by
  refine Classical.byContradiction fun hs' => ?_
  obtain ⟨before, t, after, m, m', rfl, -, hm, ht, hm'⟩ := exists_leaving_step h hs hs'
  exact hm' (hstep t (List.mem_append_right before List.mem_cons_self) m m' hm ht)

/-- A row of steps fails with the error of one of them. -/
theorem foldlM_error {P : ε → Prop} {step : σ → τ → Except ε σ} {l : List τ}
    (hstep : ∀ t ∈ l, ∀ s e, step s t = .error e → P e) {s : σ} {e : ε}
    (h : l.foldlM step s = .error e) : P e := by
  induction l generalizing s with
  | nil => cases h
  | cons t l ih =>
    rw [List.forall_mem_cons] at hstep
    rw [List.foldlM_cons] at h
    obtain ht | ⟨s', -, hrest⟩ := bind_eq_error.1 h
    · exact hstep.1 s e ht
    · exact ih hstep.2 hrest

theorem mapM_cons_eq_bind (f : τ → Except ε α) (t : τ) (l : List τ) :
    (t :: l).mapM f = (f t).bind fun a => (l.mapM f).map (a :: ·) := by
  rw [List.mapM_cons]
  cases f t with
  | error e => rfl
  | ok a => cases l.mapM f <;> rfl

theorem mapM_congr {f g : τ → Except ε α} {l : List τ} (h : ∀ t ∈ l, f t = g t) :
    l.mapM f = l.mapM g := by
  induction l with
  | nil => rfl
  | cons t l ih =>
    rw [List.forall_mem_cons] at h
    rw [mapM_cons_eq_bind, mapM_cons_eq_bind, h.1, ih h.2]

theorem mapM_map_eq_ok {f : τ → Except ε α} {g : σ → τ} {k : σ → α} {l : List σ}
    (h : ∀ a ∈ l, f (g a) = .ok (k a)) : (l.map g).mapM f = .ok (l.map k) := by
  induction l with
  | nil => rfl
  | cons a l ih =>
    rw [List.forall_mem_cons] at h
    rw [List.map_cons, mapM_cons_eq_bind, h.1, ih h.2]
    rfl

theorem mapM_eq_self {f : τ → Except ε τ} {l : List τ} (h : ∀ t ∈ l, f t = .ok t) :
    l.mapM f = .ok l := by
  have hrow := mapM_map_eq_ok (g := id) (k := id) h
  rwa [List.map_id] at hrow

theorem eq_map_of_mapM {f : τ → Except ε α} {g : τ → α} {l : List τ} {row : List α}
    (hf : ∀ t ∈ l, ∀ a, f t = .ok a → a = g t) (h : l.mapM f = .ok row) : row = l.map g := by
  induction l generalizing row with
  | nil =>
    cases h
    rfl
  | cons t l ih =>
    rw [List.forall_mem_cons] at hf
    rw [mapM_cons_eq_bind] at h
    obtain ⟨a, ha, hrest⟩ := bind_eq_ok.1 h
    obtain ⟨rest, hl, rfl⟩ := map_eq_ok.1 hrest
    rw [List.map_cons, hf.1 a ha, ih hf.2 hl]

/-- A row of steps fails where the first of them fails. -/
theorem mapM_eq_error {f : τ → Except ε α} {l : List τ} {e : ε} : l.mapM f = .error e ↔
    ∃ before t after, l = before ++ t :: after ∧ (∀ u ∈ before, ∃ a, f u = .ok a) ∧
      f t = .error e := by
  constructor
  · intro h
    induction l with
    | nil => cases h
    | cons t l ih =>
      rw [mapM_cons_eq_bind] at h
      obtain ht | ⟨a, ha, hrest⟩ := bind_eq_error.1 h
      · exact ⟨[], t, l, rfl, by simp, ht⟩
      · obtain ⟨before, u, after, rfl, hbefore, hu⟩ := ih (map_eq_error.1 hrest)
        exact ⟨t :: before, u, after, rfl, List.forall_mem_cons.2 ⟨⟨a, ha⟩, hbefore⟩, hu⟩
  · rintro ⟨before, t, after, rfl, hbefore, ht⟩
    induction before with
    | nil => rw [List.nil_append, mapM_cons_eq_bind, ht]; rfl
    | cons u before ih =>
      rw [List.forall_mem_cons] at hbefore
      obtain ⟨⟨a, ha⟩, hbefore⟩ := hbefore
      rw [List.cons_append, mapM_cons_eq_bind, ha]
      show ((before ++ t :: after).mapM f).map (a :: ·) = .error e
      rw [ih hbefore]
      rfl

/-- A row of steps that succeeds holds what its steps come to. -/
theorem exists_mem_of_mapM {f : τ → Except ε α} {l : List τ} {row : List α}
    (h : l.mapM f = .ok row) : (∀ t ∈ l, ∃ a ∈ row, f t = .ok a) ∧
      ∀ a ∈ row, ∃ t ∈ l, f t = .ok a := by
  induction l generalizing row with
  | nil =>
    cases h
    simp
  | cons t l ih =>
    rw [mapM_cons_eq_bind] at h
    obtain ⟨a, ha, hrest⟩ := bind_eq_ok.1 h
    obtain ⟨rest, hl, rfl⟩ := map_eq_ok.1 hrest
    obtain ⟨hsteps, hrow⟩ := ih hl
    refine ⟨List.forall_mem_cons.2 ⟨⟨a, List.mem_cons_self, ha⟩, fun u hu => ?_⟩,
      List.forall_mem_cons.2 ⟨⟨t, List.mem_cons_self, ha⟩, fun b hb => ?_⟩⟩
    · obtain ⟨b, hb, hub⟩ := hsteps u hu
      exact ⟨b, List.mem_cons_of_mem a hb, hub⟩
    · obtain ⟨u, hu, hub⟩ := hrow b hb
      exact ⟨u, List.mem_cons_of_mem t hu, hub⟩

theorem forall_mem_of_mapM {P : α → Prop} {f : τ → Except ε α} {l : List τ} {row : List α}
    (hf : ∀ t ∈ l, ∀ a, f t = .ok a → P a) (h : l.mapM f = .ok row) : ∀ a ∈ row, P a := by
  intro a ha
  obtain ⟨t, ht, hta⟩ := (exists_mem_of_mapM h).2 a ha
  exact hf t ht a hta

/-- A row of steps fails with an error of which one of them fails, if they fail with no other. -/
theorem mapM_eq_error_of_mem {f : τ → Except ε α} {l : List τ} {t : τ} {e : ε} (ht : t ∈ l)
    (he : f t = .error e) (hsame : ∀ u ∈ l, ∀ e', f u = .error e' → e' = e) :
    l.mapM f = .error e := by
  cases hrow : l.mapM f with
  | ok row =>
    obtain ⟨a, -, ha⟩ := (exists_mem_of_mapM hrow).1 t ht
    cases he.symm.trans ha
  | error e' =>
    obtain ⟨before, u, after, rfl, -, hu⟩ := mapM_eq_error.1 hrow
    rw [hsame u (List.mem_append_right before List.mem_cons_self) e' hu]

/-- If a step that succeeds does the same on the changed state, then so does a row of steps. -/
theorem foldlM_frame {step : σ → τ → Except ε σ} {change : σ → σ}
    (hstep : ∀ s t s', step s t = .ok s' → step (change s) t = .ok (change s'))
    {l : List τ} {s s' : σ} (h : l.foldlM step s = .ok s') :
    l.foldlM step (change s) = .ok (change s') := by
  induction l generalizing s with
  | nil =>
    cases h
    rfl
  | cons t l ih =>
    rw [List.foldlM_cons] at h ⊢
    obtain ⟨z, hz, hrest⟩ := bind_eq_ok.1 h
    rw [hstep s t z hz]
    exact ih hrest

/-- If a step commutes with a change of the state, then so does a row of steps. -/
theorem foldlM_map {step : σ → τ → Except ε σ} {change : σ → σ}
    (hstep : ∀ s t, step (change s) t = (step s t).map change) (l : List τ) (s : σ) :
    l.foldlM step (change s) = (l.foldlM step s).map change := by
  induction l generalizing s with
  | nil => rfl
  | cons t l ih =>
    rw [List.foldlM_cons, List.foldlM_cons, hstep]
    cases step s t with
    | error e => rfl
    | ok z => exact ih z

/-! ### Errors in common words -/

section Words

variable {words : ε → δ} {words' : ε' → δ}

theorem eq_ok_iff_of_mapError_eq {r : Except ε α} {r' : Except ε' α}
    (h : r.mapError words = r'.mapError words') (a : α) : r = .ok a ↔ r' = .ok a := by
  cases r with
  | error e =>
    cases r' with
    | error e' => simp
    | ok a' => cases h
  | ok x =>
    cases r' with
    | error e' => cases h
    | ok x' =>
      cases h
      simp

theorem exists_error_of_mapError_eq {r : Except ε α} {r' : Except ε' α}
    (h : r.mapError words = r'.mapError words') {e : ε} (he : r = .error e) :
    ∃ e', r' = .error e' ∧ words' e' = words e := by
  subst he
  cases r' with
  | ok a => cases h
  | error e' => exact ⟨e', rfl, (Except.error.inj h).symm⟩

/-- Two computations of two steps come to the same, if their first steps do and their second steps
do after them. -/
theorem bind_mapError_congr {first : Except ε α} {first' : Except ε' α} {next : α → Except ε β}
    {next' : α → Except ε' β} (hfirst : first.mapError words = first'.mapError words')
    (hnext : ∀ a, first = .ok a → (next a).mapError words = (next' a).mapError words') :
    (first.bind next).mapError words = (first'.bind next').mapError words' := by
  cases first with
  | error e =>
    cases first' with
    | error e' => exact congrArg Except.error (Except.error.inj hfirst)
    | ok a => cases hfirst
  | ok a =>
    cases first' with
    | error e' => cases hfirst
    | ok a' =>
      cases hfirst
      exact hnext a rfl

/-- Two rows of steps come to the same, if every two steps do. -/
theorem mapM_mapError_congr {f : τ → Except ε α} {f' : τ → Except ε' α} {l : List τ}
    (h : ∀ t ∈ l, (f t).mapError words = (f' t).mapError words') :
    (l.mapM f).mapError words = (l.mapM f').mapError words' := by
  induction l with
  | nil => rfl
  | cons t l ih =>
    rw [List.forall_mem_cons] at h
    rw [mapM_cons_eq_bind, mapM_cons_eq_bind]
    refine bind_mapError_congr h.1 fun a _ => ?_
    rw [map_eq_bind, map_eq_bind]
    exact bind_mapError_congr (ih h.2) fun _ _ => rfl

end Words

/-! ### Translated outcomes -/

/-- The second outcome is the first one, with its value and its error in other words. -/
inductive Translates {α' : Type} (words : ε → ε') (f : α → α') :
    Except ε α → Except ε' α' → Prop
  | ok (a : α) : Translates words f (.ok a) (.ok (f a))
  | error (e : ε) : Translates words f (.error e) (.error (words e))

namespace Translates

variable {α' β' σ' τ' : Type} {words : ε → ε'} {f : α → α'}

theorem bind {first : Except ε α} {first' : Except ε' α'} {next : α → Except ε β}
    {next' : α' → Except ε' β'} {g : β → β'} (h : Translates words f first first')
    (hnext : ∀ a, Translates words g (next a) (next' (f a))) :
    Translates words g (first.bind next) (first'.bind next') := by
  cases h with
  | ok a => exact hnext a
  | error e => exact .error e

theorem map {r : Except ε α} {r' : Except ε' α'} {g : α → β} {g' : α' → β'} {k : β → β'}
    (h : Translates words f r r') (hk : ∀ a, k (g a) = g' (f a)) :
    Translates words k (r.map g) (r'.map g') := by
  cases h with
  | ok a =>
    show Translates words k (.ok (g a)) (.ok (g' (f a)))
    rw [← hk]
    exact .ok (g a)
  | error e => exact .error e

/-- A row of translated steps is a translation of the row. -/
theorem foldlM {step : σ → τ → Except ε σ} {step' : σ' → τ' → Except ε' σ'} {state : σ → σ'}
    {token : τ → τ'} (hstep : ∀ s t, Translates words state (step s t) (step' (state s) (token t)))
    (l : List τ) (s : σ) :
    Translates words state (l.foldlM step s) ((l.map token).foldlM step' (state s)) := by
  induction l generalizing s with
  | nil => exact .ok s
  | cons t l ih =>
    rw [List.map_cons, List.foldlM_cons, List.foldlM_cons]
    exact (hstep s t).bind ih

theorem mapM {g : τ → Except ε α} {g' : τ' → Except ε' α'} {token : τ → τ'}
    (hg : ∀ t, Translates words f (g t) (g' (token t))) (l : List τ) :
    Translates words (·.map f) (l.mapM g) ((l.map token).mapM g') := by
  induction l with
  | nil => exact .ok []
  | cons t l ih =>
    rw [List.map_cons, mapM_cons_eq_bind, mapM_cons_eq_bind]
    exact (hg t).bind fun a => ih.map fun _ => rfl

theorem mapError_eq {words' : ε' → δ} {r : Except ε α} {r' : Except ε' α}
    (h : Translates words id r r') :
    r'.mapError words' = r.mapError fun e => words' (words e) := by
  cases h <;> rfl

end Translates

/-! ### Outcomes beside a state -/

section Runs

theorem run_bind (act : ExceptT ε (StateM σ) α) (next : α → ExceptT ε (StateM σ) β) (s : σ) :
    (act >>= next).run s =
      match act.run s with
      | (.ok a, s') => (next a).run s'
      | (.error e, s') => (.error e, s') := by
  show (match act.run s with | (r, s') => ExceptT.bindCont next r s') = _
  rcases act.run s with ⟨⟨e⟩ | ⟨a⟩, s'⟩ <;> rfl

/-- A step that has no part in the state comes first. -/
theorem run_liftM_bind (r : Except ε α) (next : α → ExceptT ε (StateM σ) β) (s : σ) :
    ((liftM r : ExceptT ε (StateM σ) α) >>= next).run s =
      match r with
      | .ok a => (next a).run s
      | .error e => (.error e, s) := by
  rw [run_bind]
  cases r <;> rfl

theorem run_tryCatch (act : ExceptT ε (StateM σ) α) (handler : ε → ExceptT ε (StateM σ) α) (s : σ) :
    (tryCatch act handler).run s =
      match act.run s with
      | (.ok a, s') => (.ok a, s')
      | (.error e, s') => (handler e).run s' := by
  simp only [tryCatch, tryCatchThe, MonadExceptOf.tryCatch, ExceptT.tryCatch, ExceptT.run_mk, bind,
    StateT.bind]
  rcases hrun : act s with ⟨⟨e⟩ | ⟨a⟩, s'⟩
  · simp only [ExceptT.run, hrun]
  · simp only [ExceptT.run, hrun]
    rfl

end Runs

end FormulaBook
