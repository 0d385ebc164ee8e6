import FormulaBook.Text.Blank
import Mathlib.Data.List.DropRight

/-!
# Texts without blanks at their ends

What is removed at the ends of a text satisfies the condition, and what is left neither begins nor
ends so.

* `exists_trimBy`: a text with what is removed from it;
* `mem_of_mem_trimBy`, `trimBy_ne_nil`: what is left of a text;
* `trimBy_eq_self`, `trimBy_eq_self_of_forall`: texts that stay as they are;
* `head_trimBy`, `getLast_trimBy`: the ends of what is left;
* `trimBy_trimBy`, `trim_trim`: nothing is removed the second time;
* `trimBy_map`: characters that are changed before or afterwards.
-/

namespace FormulaBook.Text

variable {p : Char → Bool} {l : List Char}

theorem exists_trimBy (p : Char → Bool) (l : List Char) :
    ∃ before after, before ++ trimBy p l ++ after = l ∧
      (∀ c ∈ before, p c = true) ∧ ∀ c ∈ after, p c = true := by
  have hback : trimBy p l ++ (l.dropWhile p).rtakeWhile p = l.dropWhile p :=
    List.rdropWhile_append_rtakeWhile
  refine ⟨l.takeWhile p, (l.dropWhile p).rtakeWhile p, ?_, ?_, ?_⟩
  · rw [List.append_assoc, hback, List.takeWhile_append_dropWhile]
  · exact fun c hc => List.mem_takeWhile_imp hc
  · exact fun c hc => List.mem_rtakeWhile_imp hc

theorem mem_of_mem_trimBy {c : Char} (h : c ∈ trimBy p l) : c ∈ l := by
  obtain ⟨before, after, heq, -, -⟩ := exists_trimBy p l
  rw [← heq]
  exact List.mem_append_left after (List.mem_append_right before h)

/-- Something is left of a text in which a character does not satisfy `p`. -/
theorem trimBy_ne_nil {c : Char} (hc : c ∈ l) (hp : p c = false) : trimBy p l ≠ [] := by
  obtain ⟨before, after, heq, hbefore, hafter⟩ := exists_trimBy p l
  intro hnil
  rw [← heq, hnil, List.append_nil, List.mem_append] at hc
  obtain hc | hc := hc
  · exact Bool.false_ne_true (hp.symm.trans (hbefore c hc))
  · exact Bool.false_ne_true (hp.symm.trans (hafter c hc))

/-- A text stays as it is if neither its first nor its last character satisfies `p`. -/
theorem trimBy_eq_self (hhead : ∀ c ∈ l.head?, p c = false)
    (hlast : ∀ c ∈ l.getLast?, p c = false) : trimBy p l = l := by
  have hfront : l.dropWhile p = l := by
    cases l with
    | nil => rfl
    | cons c l => exact List.dropWhile_cons_of_neg (by simp [hhead c rfl])
  have hback : l.rdropWhile p = l := by
    rw [List.rdropWhile_eq_self_iff]
    intro hne
    simp [hlast _ (List.getLast?_eq_some_getLast hne)]
  show (l.dropWhile p).rdropWhile p = l
  rw [hfront, hback]

theorem trimBy_eq_self_of_forall (h : ∀ c ∈ l, p c = false) : trimBy p l = l :=
  trimBy_eq_self (fun c hc => h c (List.mem_of_mem_head? hc))
    fun c hc => h c (List.mem_of_getLast? hc)

theorem head_trimBy : ∀ c ∈ (trimBy p l).head?, p c = false := by
  intro c hc
  -- What is left begins as it did before its end was cut.
  obtain ⟨after, hafter⟩ : trimBy p l <+: l.dropWhile p := List.rdropWhile_prefix p _
  have hfront : (l.dropWhile p).head? = some c := by
    rw [← hafter, List.head?_append, Option.mem_def.1 hc, Option.some_or]
  have hnot := List.head?_dropWhile_not p l
  rwa [hfront] at hnot

theorem getLast_trimBy : ∀ c ∈ (trimBy p l).getLast?, p c = false := by
  intro c hc
  obtain ⟨hne, rfl⟩ := List.mem_getLast?_eq_getLast hc
  exact Bool.eq_false_iff.2 (List.rdropWhile_last_not p (l.dropWhile p) hne)

/-- Nothing is removed the second time. -/
theorem trimBy_trimBy (p : Char → Bool) (l : List Char) : trimBy p (trimBy p l) = trimBy p l :=
  trimBy_eq_self head_trimBy getLast_trimBy

/-- A change that does not touch what is removed can be made before or afterwards. -/
theorem trimBy_map {f : Char → Char} (h : ∀ c, p (f c) = p c) (l : List Char) :
    trimBy p (l.map f) = (trimBy p l).map f := by
  have hsame : p ∘ f = p := funext h
  rw [trimBy, trimBy, List.dropWhile_map, hsame, ← List.map_reverse, List.dropWhile_map, hsame,
    ← List.map_reverse]

theorem trim_trim (s : String) : trim (trim s) = trim s := by
  rw [← String.toList_inj, toList_trim, toList_trim, trimBy_trimBy]

end FormulaBook.Text
