import FormulaBook.Proofs.Text.Ascii

/-!
# Halves in a text that is put together

A mark and a private character stand for half of a pair. No ASCII character is one of them, so next
to ASCII characters a text that is put together holds the halves of its parts and no others.

* `codesOfChars_append_cons`: the code points on both sides of an ASCII character;
* `IsAscii`, `holdsHalf_append_left`, `holdsHalf_append_right`, `holdsHalf_between`: two texts with
  ASCII characters around or between them;
* `holdsHalf_join`, `holdsHalf_intercalate`: rows of texts.
-/

namespace FormulaBook.Text

/-! ### Characters -/

section Chars

variable {c : Char} {m : List Char}

theorem codesFrom_append_cons (h : c.toNat < 0x80) (l r : List Char) (marks : Nat)
    (out : List Nat) : codesFrom marks out (l ++ c :: r) =
      codesFrom marks out l ++ c.toNat :: codesFrom 0 [] r := by
  induction l generalizing marks out with
  | nil =>
    rw [List.nil_append, codesFrom, codesFrom, if_neg (ne_halfMark_of_ascii h),
      if_neg (not_isStandIn_of_ascii h), codesFrom_eq_append]
    simp
  | cons d l ih =>
    rw [List.cons_append, codesFrom, codesFrom]
    split
    · exact ih _ _
    split
    · exact ih _ _
    · exact ih _ _

/-- The code points on both sides of an ASCII character are those of the two sides. -/
theorem codesOfChars_append_cons (h : c.toNat < 0x80) (l r : List Char) :
    codesOfChars (l ++ c :: r) = codesOfChars l ++ c.toNat :: codesOfChars r :=
  codesFrom_append_cons h l r 0 []

theorem any_isHalf_append_cons (h : c.toNat < 0x80) (l r : List Char) :
    (codesOfChars (l ++ c :: r)).any isHalf =
      ((codesOfChars l).any isHalf || (codesOfChars r).any isHalf) := by
  rw [codesOfChars_append_cons h, List.any_append, List.any_cons, not_isHalf_of_ascii h,
    Bool.false_or]

theorem any_isHalf_ascii_append (h : ∀ c ∈ m, c.toNat < 0x80) (r : List Char) :
    (codesOfChars (m ++ r)).any isHalf = (codesOfChars r).any isHalf := by
  induction m with
  | nil => rfl
  | cons c m ih =>
    rw [List.forall_mem_cons] at h
    have hcons := any_isHalf_append_cons h.1 [] (m ++ r)
    rw [ih h.2] at hcons
    exact hcons

end Chars

/-! ### Texts -/

/-- The texts of ASCII characters. -/
def IsAscii (s : String) : Prop := ∀ c ∈ s.toList, c.toNat < 0x80

instance (s : String) : Decidable (IsAscii s) :=
  decidable_of_iff (s.toList.all (·.toNat < 0x80) = true) (by simp [IsAscii])

section Texts

variable {m : String}

theorem isAscii_of_isPlain {s : String} (h : ∀ c ∈ s.toList, isPlain c = true) : IsAscii s :=
  fun c hc => Nat.lt_of_le_of_lt (isPlain_iff.1 (h c hc)).2 (by decide)

theorem IsAscii.append {s : String} (h : IsAscii m) (hs : IsAscii s) : IsAscii (m ++ s) := by
  rw [IsAscii, String.toList_append]
  exact List.forall_mem_append.2 ⟨h, hs⟩

theorem IsAscii.intercalate (h : IsAscii m) {parts : List String}
    (hparts : ∀ s ∈ parts, IsAscii s) : IsAscii (m.intercalate parts) := by
  induction parts with
  | nil => simp [IsAscii]
  | cons part parts ih =>
    rw [List.forall_mem_cons] at hparts
    cases parts with
    | nil =>
      rw [String.intercalate_singleton]
      exact hparts.1
    | cons next parts =>
      rw [String.intercalate_cons_cons]
      exact (hparts.1.append h).append (ih hparts.2)

theorem holdsHalf_append_left (h : IsAscii m) (s : String) :
    holdsHalf (m ++ s) = holdsHalf s := by
  rw [holdsHalf, codes, String.toList_append]
  exact any_isHalf_ascii_append h s.toList

/-- Between two texts there is an ASCII text. -/
theorem holdsHalf_between (h : IsAscii m) (hne : m ≠ "") (s t : String) :
    holdsHalf (s ++ m ++ t) = (holdsHalf s || holdsHalf t) := by
  obtain ⟨c, rest, hm⟩ := List.exists_cons_of_ne_nil (mt String.toList_eq_nil_iff.1 hne)
  rw [IsAscii, hm, List.forall_mem_cons] at h
  have hchars : (s ++ m ++ t).toList = s.toList ++ c :: (rest ++ t.toList) := by
    simp [hm]
  rw [holdsHalf, codes, hchars, any_isHalf_append_cons h.1, any_isHalf_ascii_append h.2]
  rfl

theorem holdsHalf_append_right (h : IsAscii m) (s : String) :
    holdsHalf (s ++ m) = holdsHalf s := by
  by_cases hne : m = ""
  · rw [hne, String.append_empty]
  · have hbetween := holdsHalf_between h hne s ""
    rw [String.append_empty] at hbetween
    rw [hbetween, holdsHalf_of_ascii (s := "") (by simp), Bool.or_false]

/-- Lines hold the halves that one of them holds. -/
theorem holdsHalf_join {lines : List String} (h : ∀ line ∈ lines, ∃ s, line = s ++ "\n") :
    holdsHalf (String.join lines) = lines.any holdsHalf := by
  induction lines with
  | nil => rfl
  | cons line lines ih =>
    rw [List.forall_mem_cons] at h
    obtain ⟨⟨s, rfl⟩, h⟩ := h
    rw [String.join_cons, holdsHalf_between (by decide) (by decide), ih h, List.any_cons,
      holdsHalf_append_right (by decide)]

theorem holdsHalf_intercalate (h : IsAscii m) (hne : m ≠ "") (parts : List String) :
    holdsHalf (m.intercalate parts) = parts.any holdsHalf := by
  induction parts with
  | nil => rfl
  | cons part parts ih =>
    cases parts with
    | nil => simp
    | cons next parts =>
      rw [String.intercalate_cons_cons, holdsHalf_between h hne, ih]
      rfl

end Texts

end FormulaBook.Text
