import Mathlib.Data.List.Induction
import Mathlib.Data.List.Nodup
import Mathlib.Tactic.Common

/-!
# What is found in lists

What is found under a key in a list of pairs, and the first member of a list with some property.

* `lookup_cons_of_ne`: a pair with another key is passed over;
* `mem_of_lookup`, `isSome_lookup`: what is found is in the list, and something is found under each
  key and under nothing else;
* `lookup_eq_some_of_unique`, `lookup_of_mem`: what is in a list is found if there is nothing else
  under its key, as in a list with different keys;
* `lookup_filter_ne`, `lookup_map_snd`: pairs with another key can be taken out, and what is found
  can be changed before;
* `find?_eq_some_of_unique`: what is found if there is nothing else;
* `eraseDups_concat`, `nodup_eraseDups`, `eraseDups_of_nodup`, `find?_eraseDups`: a list in which
  each member stands only once.
-/

namespace FormulaBook

/-- In a list with different keys there is one value under each key. -/
theorem unique_of_nodup {κ α : Type} {key : κ} {l : List (κ × α)} (hnodup : (l.map (·.1)).Nodup)
    (a b : α) (ha : (key, a) ∈ l) (hb : (key, b) ∈ l) : a = b :=
  congrArg Prod.snd (List.inj_on_of_nodup_map hnodup ha hb rfl)

variable {κ α : Type} [BEq κ] [LawfulBEq κ] {key other : κ} {a : α} {l : List (κ × α)}

theorem lookup_cons_of_ne (h : key ≠ other) (a : α) (l : List (κ × α)) :
    ((other, a) :: l).lookup key = l.lookup key := by
  rw [List.lookup_cons, beq_false_of_ne h]

theorem mem_of_lookup (h : l.lookup key = some a) : (key, a) ∈ l := by
  obtain ⟨before, after, rfl, -⟩ := List.lookup_eq_some_iff.1 h
  exact List.mem_append_right before List.mem_cons_self

theorem isSome_lookup : (l.lookup key).isSome = true ↔ key ∈ l.map (·.1) := by
  simp only [List.lookup_isSome_iff, beq_iff_eq, List.mem_map, eq_comm (a := key)]

/-- What is in a list is found under its key if there is nothing else under that key. -/
theorem lookup_eq_none_iff : l.lookup key = none ↔ key ∉ l.map (·.1) := by
  rw [← isSome_lookup, Option.not_isSome_iff_eq_none]

theorem lookup_eq_some_of_unique (hunique : ∀ a b, (key, a) ∈ l → (key, b) ∈ l → a = b) :
    l.lookup key = some a ↔ (key, a) ∈ l := by
  refine ⟨mem_of_lookup, fun hmem => ?_⟩
  obtain ⟨b, hb⟩ := Option.isSome_iff_exists.1
    (isSome_lookup.2 (List.mem_map_of_mem (f := (·.1)) hmem))
  rw [hb, hunique b a (mem_of_lookup hb) hmem]

theorem lookup_of_mem (hnodup : (l.map (·.1)).Nodup) (h : (key, a) ∈ l) :
    l.lookup key = some a :=
  (lookup_eq_some_of_unique (unique_of_nodup hnodup)).2 h

theorem lookup_filter_ne (h : key ≠ other) :
    (l.filter (·.1 != other)).lookup key = l.lookup key := by
  induction l with
  | nil => rfl
  | cons p l ih =>
    obtain ⟨k, b⟩ := p
    by_cases hk : k = other
    · subst hk
      rw [List.filter_cons_of_neg (by simp), ih, lookup_cons_of_ne h]
    · rw [List.filter_cons_of_pos (by simpa using hk), List.lookup_cons, List.lookup_cons, ih]

theorem lookup_map_snd {β : Type} (f : α → β) (key : κ) (l : List (κ × α)) :
    (l.map fun p => (p.1, f p.2)).lookup key = (l.lookup key).map f := by
  induction l with
  | nil => rfl
  | cons p l ih =>
    obtain ⟨k, a⟩ := p
    rw [List.map_cons]
    by_cases h : key = k
    · subst h
      rw [List.lookup_cons_self, List.lookup_cons_self, Option.map_some]
    · rw [lookup_cons_of_ne h, lookup_cons_of_ne h, ih]

theorem find?_eq_some_of_unique {p : α → Bool} {l : List α} (hmem : a ∈ l) (hp : p a = true)
    (hunique : ∀ b ∈ l, p b = true → b = a) : l.find? p = some a := by
  obtain ⟨b, hb⟩ := Option.isSome_iff_exists.1 (List.find?_isSome.2 ⟨a, hmem, hp⟩)
  rw [hb, hunique b (List.mem_of_find?_eq_some hb) (List.find?_some hb)]

/-! ### Lists without repetitions -/

/-- One more member changes a list without repetitions if it is new. -/
theorem eraseDups_concat (l : List κ) (k : κ) :
    (l ++ [k]).eraseDups = if k ∈ l then l.eraseDups else l.eraseDups ++ [k] := by
  rw [List.eraseDups_append]
  split
  · rename_i h
    have hold : [k].removeAll l = [] := by simp [List.removeAll, h]
    simp [hold]
  · rename_i h
    have hnew : [k].removeAll l = [k] := by simp [List.removeAll, h]
    simp [hnew, List.eraseDups_cons]

theorem nodup_eraseDups (l : List κ) : l.eraseDups.Nodup := by
  induction l using List.reverseRecOn with
  | nil => exact List.nodup_nil
  | append_singleton l k ih =>
    rw [eraseDups_concat]
    split
    · exact ih
    · rename_i hk
      rw [← List.mem_eraseDups] at hk
      refine List.nodup_append.2 ⟨ih, by simp, fun k' hk' other hother heq => ?_⟩
      exact hk (List.mem_singleton.1 hother ▸ heq ▸ hk')

/-- A list without repetitions stays as it is. -/
theorem eraseDups_of_nodup {l : List κ} (h : l.Nodup) : l.eraseDups = l := by
  induction l using List.reverseRecOn with
  | nil => rfl
  | append_singleton l k ih =>
    obtain ⟨hl, -, hapart⟩ := List.nodup_append.1 h
    have hk : k ∉ l := fun hmem => hapart k hmem k (List.mem_singleton_self k) rfl
    rw [eraseDups_concat, if_neg hk, ih hl]

theorem find?_eraseDups (p : κ → Bool) (l : List κ) : l.eraseDups.find? p = l.find? p := by
  induction l using List.reverseRecOn with
  | nil => rfl
  | append_singleton l k ih =>
    rw [eraseDups_concat, List.find?_append, ← ih]
    split
    · rename_i hk
      -- If `k` has the property, then something is found before it.
      cases hfind : l.eraseDups.find? p with
      | some found => rfl
      | none =>
        have hnot := List.find?_eq_none.1 hfind k (List.mem_eraseDups.2 hk)
        rw [List.find?_cons_of_neg hnot]
        rfl
    · rw [List.find?_append]

end FormulaBook
