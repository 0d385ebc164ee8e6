import FormulaBook.Proofs.Json.RoundTrip
import FormulaBook.Proofs.Lookup

/-!
# The order of fields

The fields of an object are written in the order of their names. A value with its fields in that
order is the same one as before to anybody who looks fields up, and it can be read back if the value
can.

* `Alike`: values that differ in the order of fields only;
* `alike_sorted`: a value and the same with its fields in order;
* `Legible.sorted`: the order of fields makes no value less legible;
* `length_render_sorted`: the order of fields changes no length;
* `field?_reread_sorted`: the fields of an object that is written in order and read.
-/

namespace FormulaBook.Json

open Text

/-- The values that differ in the order of fields only: the same items in the same places, and the
same values under the same names. -/
inductive Alike : Json → Json → Prop
  | refl (j : Json) : Alike j j
  | list {items items' : List Json} (length : items.length = items'.length)
      (h : ∀ (i : Nat) (j j' : Json), items[i]? = some j → items'[i]? = some j' → Alike j j') :
      Alike (.list items) (.list items')
  | object {fields fields' : List (String × Json)}
      (names : (fields.map Prod.fst).Perm (fields'.map Prod.fst))
      (h : ∀ (name : String) (j j' : Json), fields.lookup name = some j →
        fields'.lookup name = some j' → Alike j j') :
      Alike (.object fields) (.object fields')

theorem map_fst_sorted {fields fields' : List (String × Json)}
    (h : fields'.Perm (fields.map fun f => (f.1, f.2.sorted))) :
    (fields'.map Prod.fst).Perm (fields.map Prod.fst) := by
  have hnames := h.map Prod.fst
  rwa [List.map_map] at hnames

theorem halvesApart_sorted {fields fields' : List (String × Json)}
    (h : fields'.Perm (fields.map fun f => (f.1, f.2.sorted)))
    (hapart : ∀ f ∈ fields, HalvesApart f.1) : ∀ f ∈ fields', HalvesApart f.1 := by
  intro f hf
  obtain ⟨g, hg, rfl⟩ := List.mem_map.1 (h.mem_iff.1 hf)
  exact hapart g hg

/-- A value with its fields in order is like the value. -/
theorem alike_sorted {j : Json} (h : j.Legible) : Alike j.sorted j := by
  induction h with
  | null | bool | int | float | text => exact .refl _
  | @list items _ ih =>
    rw [sorted, sortedItems_eq_map]
    refine .list (List.length_map _) fun i j j' hj hj' => ?_
    rw [List.getElem?_map, hj'] at hj
    cases hj
    exact ih j' (List.mem_of_getElem? hj')
  | @object fields names _ _ ih =>
    obtain ⟨fields', hsorted, hperm⟩ := sorted_object fields
    have hnames := map_fst_sorted hperm
    rw [hsorted]
    refine .object hnames fun name j j' hj hj' => ?_
    obtain ⟨g, hg, heq⟩ := List.mem_map.1 (hperm.mem_iff.1 (mem_of_lookup hj))
    cases heq
    rw [lookup_of_mem names hg] at hj'
    cases hj'
    exact ih g hg

theorem Legible.sorted {j : Json} (h : j.Legible) : j.sorted.Legible := by
  induction h with
  | null => exact .null
  | bool b => exact .bool b
  | int n => exact .int n
  | float h => exact .float h
  | text h => exact .text h
  | list _ ih =>
    rw [Json.sorted, sortedItems_eq_map]
    exact .list (List.forall_mem_map.2 ih)
  | @object fields names apart _ ih =>
    obtain ⟨fields', hsorted, hperm⟩ := sorted_object fields
    rw [hsorted]
    refine .object ((map_fst_sorted hperm).nodup_iff.2 names) (halvesApart_sorted hperm apart) ?_
    intro f hf
    obtain ⟨g, hg, rfl⟩ := List.mem_map.1 (hperm.mem_iff.1 hf)
    exact ih g hg

/-! ### Size -/

theorem length_rowChars_cons (part : List Char) (parts : List (List Char)) :
    (rowChars (part :: parts)).length = (part :: parts).flatten.length + 2 * parts.length := by
  have hrest : (parts.flatMap ([',', ' '] ++ ·)).length =
      parts.flatten.length + 2 * parts.length := by
    induction parts with
    | nil => rfl
    | cons next parts ih =>
      rw [List.flatMap_cons, List.length_append, ih, List.flatten_cons]
      simp only [List.length_append, List.length_cons, List.length_nil]
      omega
  rw [rowChars, List.length_append, hrest, List.flatten_cons, List.length_append]
  omega

/-- A row of parts is as long as any other one whose parts have the same lengths in some order. -/
theorem length_rowChars_eq {parts parts' : List (List Char)}
    (h : (parts.map List.length).Perm (parts'.map List.length)) :
    (rowChars parts).length = (rowChars parts').length := by
  cases parts with
  | nil =>
    have hnil : parts' = [] := List.map_eq_nil_iff.1 h.symm.eq_nil
    rw [hnil]
  | cons part parts =>
    cases parts' with
    | nil => cases h.eq_nil
    | cons part' parts' =>
      have hsum := h.sum_nat
      rw [← List.length_flatten, ← List.length_flatten] at hsum
      have hcount : parts.length = parts'.length := by simpa using h.length_eq
      rw [length_rowChars_cons, length_rowChars_cons, hsum, hcount]

theorem length_render_list (items : List Json) : (render (.list items)).toList.length =
    (rowChars (items.map fun j => j.render.toList)).length + 2 := by
  rw [toList_render_list, List.length_cons, List.length_append]
  rfl

theorem length_render_object (fields : List (String × Json)) :
    (render (.object fields)).toList.length = (rowChars (fields.map fieldChars)).length + 2 := by
  rw [toList_render_object, List.length_cons, List.length_append]
  rfl

/-- A value is written in as many characters as it is with its fields in order. -/
theorem length_render_sorted (j : Json) :
    j.sorted.render.toList.length = j.render.toList.length := by
  induction j using Json.induction with
  | null | bool | int | float | text => rfl
  | list items ih =>
    rw [sorted, sortedItems_eq_map, length_render_list, length_render_list]
    refine congrArg (· + 2) (length_rowChars_eq (List.Perm.of_eq ?_))
    rw [List.map_map, List.map_map, List.map_map]
    exact List.map_congr_left ih
  | object fields ih =>
    obtain ⟨fields', hsorted, hperm⟩ := sorted_object fields
    have hlengths : ((fields.map fun f => (f.1, f.2.sorted)).map fieldChars).map List.length =
        (fields.map fieldChars).map List.length := by
      rw [List.map_map, List.map_map, List.map_map]
      refine List.map_congr_left fun f hf => ?_
      simp only [Function.comp_apply, fieldChars, List.length_append, List.length_cons, ih f hf]
    rw [hsorted, length_render_object, length_render_object]
    refine congrArg (· + 2) (length_rowChars_eq ?_)
    exact ((hperm.map fieldChars).map List.length).trans (List.Perm.of_eq hlengths)

/-! ### Written and read -/

/-- Under a name of ASCII characters an object with different names that is written in order is read
with its field, whatever the other names and the values are. -/
theorem field?_reread_sorted {fields : List (String × Json)} (hnodup : (fields.map Prod.fst).Nodup)
    {name : String} (hname : IsAscii name) :
    (object fields).sorted.reread.field? name =
      (fields.lookup name).map fun j => j.sorted.reread := by
  obtain ⟨fields', hsorted, hperm⟩ := sorted_object fields
  have hnodup' := (map_fst_sorted hperm).nodup_iff.2 hnodup
  rw [hsorted, field?_reread hnodup' hname]
  ext v
  simp only [Option.map_eq_some_iff, lookup_eq_some_of_unique (unique_of_nodup hnodup'),
    lookup_eq_some_of_unique (unique_of_nodup hnodup), hperm.mem_iff, List.mem_map, Prod.mk.injEq]
  constructor
  · rintro ⟨_, ⟨⟨name, j⟩, hmem, rfl, rfl⟩, rfl⟩
    exact ⟨j, hmem, rfl⟩
  · rintro ⟨j, hmem, rfl⟩
    exact ⟨j.sorted, ⟨(name, j), hmem, rfl, rfl⟩, rfl⟩

end FormulaBook.Json
