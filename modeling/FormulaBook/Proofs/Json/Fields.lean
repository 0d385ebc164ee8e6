import FormulaBook.Json.Basic
import FormulaBook.Proofs.Lookup

/-!
# Fields that are set

A field that is set takes the place of the first field of its name, or comes last if there is none.
All other fields stay as they are and where they are.

* `setField_of_not_mem`, `foldl_setField`: fields with new names come last;
* `lookup_setField`, `filter_setField`: the field that is set, and the others;
* `lookup_foldl_setField`: what is found when a row of fields has been set;
* `setField_of_lookup`: a field that is set to what it holds.
-/

namespace FormulaBook.Json

variable {name : String} {j : Json} {fields done : List (String × Json)}

theorem setField_of_not_mem (h : name ∉ done.map Prod.fst) (j : Json) :
    setField name j done = done ++ [(name, j)] := by
  induction done with
  | nil => rfl
  | cons f done ih =>
    rw [List.map_cons, List.mem_cons, not_or] at h
    rw [setField, if_neg (by simpa using Ne.symm h.1), ih h.2, List.cons_append]

theorem foldl_setField (h : ((done ++ fields).map Prod.fst).Nodup) :
    fields.foldl (fun done f => setField f.1 f.2 done) done = done ++ fields := by
  induction fields generalizing done with
  | nil => simp
  | cons f fields ih =>
    have hnot : f.1 ∉ done.map Prod.fst := by
      rw [List.map_append, List.map_cons] at h
      intro hmem
      exact (List.nodup_append.1 h).2.2 f.1 hmem f.1 List.mem_cons_self rfl
    rw [List.foldl_cons, setField_of_not_mem hnot, ih (by simpa using h)]
    simp

theorem lookup_setField (name key : String) (j : Json) (done : List (String × Json)) :
    (setField name j done).lookup key = if key = name then some j else done.lookup key := by
  induction done with
  | nil =>
    by_cases h : key = name
    · subst h
      simp [setField]
    · rw [setField, lookup_cons_of_ne h, if_neg h]
  | cons f done ih =>
    obtain ⟨n, v⟩ := f
    rw [setField]
    by_cases hn : n = name
    · subst hn
      rw [if_pos (beq_self_eq_true n)]
      by_cases h : key = n
      · subst h
        simp
      · rw [lookup_cons_of_ne h, if_neg h, lookup_cons_of_ne h]
    · rw [if_neg (by simpa using hn)]
      by_cases h : key = n
      · subst h
        simp [hn]
      · rw [lookup_cons_of_ne h, ih, lookup_cons_of_ne h]

/-- Of the fields that are set one after the other, the last of a name counts. -/
theorem lookup_foldl_setField (name : String) (fields done : List (String × Json)) :
    (fields.reverse.foldl (fun done f => setField f.1 f.2 done) done).lookup name =
      (fields.lookup name).or (done.lookup name) := by
  induction fields with
  | nil => simp
  | cons f fields ih =>
    obtain ⟨n, v⟩ := f
    rw [List.reverse_cons, List.foldl_append, List.foldl_cons, List.foldl_nil, lookup_setField, ih]
    by_cases h : name = n
    · subst h
      simp
    · rw [if_neg h, lookup_cons_of_ne h]

/-- The fields of other names stay, in their order. -/
theorem filter_setField (name : String) (j : Json) (done : List (String × Json)) :
    (setField name j done).filter (·.1 != name) = done.filter (·.1 != name) := by
  induction done with
  | nil => simp [setField]
  | cons f done ih =>
    obtain ⟨n, v⟩ := f
    rw [setField]
    split
    · rename_i hn
      rw [List.filter_cons_of_neg (by simpa using hn), List.filter_cons_of_neg (by simpa using hn)]
    · rw [List.filter_cons, List.filter_cons, ih]

theorem setField_of_lookup (h : done.lookup name = some j) : setField name j done = done := by
  induction done with
  | nil => cases h
  | cons f done ih =>
    obtain ⟨n, v⟩ := f
    rw [setField]
    by_cases hn : name = n
    · subst hn
      rw [List.lookup_cons_self] at h
      rw [if_pos (beq_self_eq_true name), Option.some.inj h]
    · rw [lookup_cons_of_ne hn] at h
      rw [if_neg (by simpa using Ne.symm hn), ih h]

end FormulaBook.Json
