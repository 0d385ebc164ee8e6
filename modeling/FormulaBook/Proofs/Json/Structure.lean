import FormulaBook.Event.Basic
import FormulaBook.Json.Printer
import Mathlib.Tactic.Common

/-!
# The structure of JSON values

The functions on JSON values go through the items of a list and the fields of an object one by one.
What they do is said here for all items and fields at once, and what holds of the parts of every
value is shown of the value.

* `Json.induction`: a property that passes from the parts of a value to the value;
* `renderItems_eq_map`, `sortedFields_eq_map` and others: items and fields one by one;
* `itemsDepth_le`, `itemsToValues_long` and others: what holds of all items or of all fields;
* `depth_sorted`, `hasLongNumber_sorted`, `depth_finite`: what the order of fields, and the absence
  of doubles that are not finite, leave as it is.
-/

namespace FormulaBook.Json

/-- A property that passes from the items of a list to the list, and from the values of the fields of
an object to the object, holds of every value if it holds of those without parts. -/
@[elab_as_elim]
theorem induction {P : Json → Prop} (null : P .null) (bool : ∀ b, P (.bool b))
    (int : ∀ n, P (.int n)) (float : ∀ x, P (.float x)) (text : ∀ s, P (.text s))
    (list : ∀ items, (∀ j ∈ items, P j) → P (.list items))
    (object : ∀ fields, (∀ f ∈ fields, P f.2) → P (.object fields)) (j : Json) : P j :=
  @Json.rec P (fun items => ∀ j ∈ items, P j) (fun fields => ∀ f ∈ fields, P f.2) (fun f => P f.2)
    null bool int float text list object (by simp) (fun _ _ h hs => List.forall_mem_cons.2 ⟨h, hs⟩)
    (by simp) (fun _ _ h hs => List.forall_mem_cons.2 ⟨h, hs⟩) (fun _ _ h => h) j

/-! ### One by one -/

theorem renderItems_eq_map (items : List Json) : renderItems items = items.map render := by
  induction items with
  | nil => rfl
  | cons j items ih => rw [renderItems, ih, List.map_cons]

theorem renderFields_eq_map (fields : List (String × Json)) :
    renderFields fields = fields.map fun f => renderText f.1 ++ ": " ++ f.2.render := by
  induction fields with
  | nil => rfl
  | cons f fields ih => rw [renderFields, ih, List.map_cons]

theorem indentedItems_eq_map (level : Nat) (items : List Json) :
    indentedItems level items = items.map (renderIndented level) := by
  induction items with
  | nil => rfl
  | cons j items ih => rw [indentedItems, ih, List.map_cons]

theorem indentedFields_eq_map (level : Nat) (fields : List (String × Json)) :
    indentedFields level fields =
      fields.map fun f => renderText f.1 ++ ": " ++ f.2.renderIndented level := by
  induction fields with
  | nil => rfl
  | cons f fields ih => rw [indentedFields, ih, List.map_cons]

theorem sortedItems_eq_map (items : List Json) : sortedItems items = items.map sorted := by
  induction items with
  | nil => rfl
  | cons j items ih => rw [sortedItems, ih, List.map_cons]

theorem sortedFields_eq_map (fields : List (String × Json)) :
    sortedFields fields = fields.map fun f => (f.1, f.2.sorted) := by
  induction fields with
  | nil => rfl
  | cons f fields ih => rw [sortedFields, ih, List.map_cons]

theorem finiteItems_eq_map (items : List Json) : finiteItems items = items.map finite := by
  induction items with
  | nil => rfl
  | cons j items ih => rw [finiteItems, ih, List.map_cons]

theorem finiteFields_eq_map (fields : List (String × Json)) :
    finiteFields fields = fields.map fun f => (f.1, f.2.finite) := by
  induction fields with
  | nil => rfl
  | cons f fields ih => rw [finiteFields, ih, List.map_cons]

/-- The fields of an object in order, each with its value in order. -/
theorem sorted_object (fields : List (String × Json)) : ∃ fields', (object fields).sorted =
    .object fields' ∧ fields'.Perm (fields.map fun f => (f.1, f.2.sorted)) := by
  refine ⟨_, rfl, ?_⟩
  rw [sortedFields_eq_map]
  exact List.mergeSort_perm _ _

/-! ### All at once -/

theorem itemsDepth_le {items : List Json} {n : Nat} :
    itemsDepth items ≤ n ↔ ∀ j ∈ items, j.depth ≤ n := by
  induction items with
  | nil => simp [itemsDepth]
  | cons j items ih => rw [itemsDepth, Nat.max_le, ih, List.forall_mem_cons]

theorem fieldsDepth_le {fields : List (String × Json)} {n : Nat} :
    fieldsDepth fields ≤ n ↔ ∀ f ∈ fields, f.2.depth ≤ n := by
  induction fields with
  | nil => simp [fieldsDepth]
  | cons f fields ih => rw [fieldsDepth, Nat.max_le, ih, List.forall_mem_cons]

theorem itemsToValues_long {items : List Json} :
    Value.itemsHaveLongNumber (itemsToValues items) = false ↔
      ∀ j ∈ items, j.toValue.hasLongNumber = false := by
  induction items with
  | nil => simp [itemsToValues, Value.itemsHaveLongNumber]
  | cons j items ih =>
    rw [itemsToValues, Value.itemsHaveLongNumber, Bool.or_eq_false_iff, ih, List.forall_mem_cons]

theorem fieldsToEntries_long {fields : List (String × Json)} :
    Value.entriesHaveLongNumber (fieldsToEntries fields) = false ↔
      ∀ f ∈ fields, f.2.toValue.hasLongNumber = false := by
  induction fields with
  | nil => simp [fieldsToEntries, Value.entriesHaveLongNumber]
  | cons f fields ih =>
    rw [fieldsToEntries, Value.entriesHaveLongNumber, Bool.or_eq_false_iff, ih, List.forall_mem_cons,
      Value.hasLongNumber, Bool.false_or]

/-! ### What stays as it is -/

theorem depth_sorted (j : Json) : j.sorted.depth ≤ j.depth := by
  induction j using Json.induction with
  | null | bool | int | float | text => exact Nat.le_refl _
  | list items ih =>
    rw [sorted, depth, depth, Nat.add_le_add_iff_right, itemsDepth_le, sortedItems_eq_map,
      List.forall_mem_map]
    exact fun j hj => Nat.le_trans (ih j hj) (itemsDepth_le.1 (Nat.le_refl _) j hj)
  | object fields ih =>
    obtain ⟨fields', hsorted, hperm⟩ := sorted_object fields
    rw [hsorted, depth, depth, Nat.add_le_add_iff_right, fieldsDepth_le]
    intro f hf
    obtain ⟨g, hg, rfl⟩ := List.mem_map.1 (hperm.mem_iff.1 hf)
    exact Nat.le_trans (ih g hg) (fieldsDepth_le.1 (Nat.le_refl _) g hg)

theorem depth_finite (j : Json) : j.finite.depth ≤ j.depth := by
  induction j using Json.induction with
  | null | bool | int | text => exact Nat.le_refl _
  | float x =>
    rw [finite]
    split <;> exact Nat.le_refl _
  | list items ih =>
    rw [finite, depth, depth, Nat.add_le_add_iff_right, itemsDepth_le, finiteItems_eq_map,
      List.forall_mem_map]
    exact fun j hj => Nat.le_trans (ih j hj) (itemsDepth_le.1 (Nat.le_refl _) j hj)
  | object fields ih =>
    rw [finite, depth, depth, Nat.add_le_add_iff_right, fieldsDepth_le, finiteFields_eq_map,
      List.forall_mem_map]
    exact fun f hf => Nat.le_trans (ih f hf) (fieldsDepth_le.1 (Nat.le_refl _) f hf)

theorem hasLongNumber_sorted {j : Json} (h : j.toValue.hasLongNumber = false) :
    j.sorted.toValue.hasLongNumber = false := by
  induction j using Json.induction with
  | null | bool | int | float | text => exact h
  | list items ih =>
    rw [toValue, Value.hasLongNumber, itemsToValues_long] at h
    rw [sorted, toValue, Value.hasLongNumber, itemsToValues_long, sortedItems_eq_map,
      List.forall_mem_map]
    exact fun j hj => ih j hj (h j hj)
  | object fields ih =>
    rw [toValue, Value.hasLongNumber, fieldsToEntries_long] at h
    obtain ⟨fields', hsorted, hperm⟩ := sorted_object fields
    rw [hsorted, toValue, Value.hasLongNumber, fieldsToEntries_long]
    intro f hf
    obtain ⟨g, hg, rfl⟩ := List.mem_map.1 (hperm.mem_iff.1 hf)
    exact ih g hg (h g hg)

end FormulaBook.Json
