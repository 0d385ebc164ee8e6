import FormulaBook.NumberFormat
import FormulaBook.Proofs.Decimal.Digits
import FormulaBook.Proofs.Outcome

/-!
# Written numbers are printable

A number is written with digits and a few signs, whatever its layout, so it can be printed as it is.

* `isDigit_of_mem_digits`: the digits of a decimal;
* `isPlain_of_mem_render`, `isPlain_of_mem_text`: the characters of a magnitude and of a double;
* `isPlain_of_mem_toString`: the characters of a whole number;
* `isPlain_of_formatNumber`: the characters of a number that is shown.
-/

namespace FormulaBook.Decimal

open Text

theorem isPlain_of_mem_toDigits (n : Nat) : ∀ c ∈ Nat.toDigits 10 n, isPlain c = true :=
  fun c hc => isPlain_of_isDigit (isDigit_of_mem_toDigits c hc)

theorem isPlain_of_mem_zeros (n : Nat) : ∀ c ∈ List.replicate n '0', isPlain c = true := by
  intro c hc
  rw [List.eq_of_mem_replicate hc]
  rfl

theorem isDigit_of_mem_digits (d : Scaled) : ∀ c ∈ d.digits, isDigit c = true := by
  unfold Scaled.digits
  dsimp only
  split
  · exact List.forall_mem_singleton.2 rfl
  · intro c hc
    rw [List.mem_reverse] at hc
    have hall := (List.dropWhile_sublist _).subset hc
    exact isDigit_of_mem_toDigits c (List.mem_reverse.1 hall)

namespace Layout

variable {layout : Layout} {digits : List Char}

theorem isPlain_of_mem_positional (h : ∀ c ∈ digits, isPlain c = true) (lead : Int) :
    ∀ c ∈ layout.positional digits lead, isPlain c = true := by
  unfold positional
  split
  · exact List.forall_mem_append.2 ⟨List.forall_mem_cons.2 ⟨rfl, List.forall_mem_cons.2
      ⟨rfl, isPlain_of_mem_zeros _⟩⟩, h⟩
  · dsimp only
    split
    · refine List.forall_mem_append.2 ⟨List.forall_mem_append.2 ⟨h, isPlain_of_mem_zeros _⟩, ?_⟩
      split
      · exact List.all_eq_true.1 rfl
      · simp
    · exact List.forall_mem_append.2 ⟨fun c hc => h c (List.mem_of_mem_take hc),
        List.forall_mem_cons.2 ⟨rfl, fun c hc => h c (List.mem_of_mem_drop hc)⟩⟩

theorem isPlain_of_mem_exponent (e : Int) : ∀ c ∈ exponent e, isPlain c = true := by
  have hsign : isPlain (if e < 0 then '-' else '+') = true := by split <;> rfl
  exact List.forall_mem_append.2 ⟨List.forall_mem_cons.2 ⟨rfl, List.forall_mem_cons.2
    ⟨hsign, isPlain_of_mem_zeros _⟩⟩, isPlain_of_mem_toDigits _⟩

theorem isPlain_of_mem_scientific (h : ∀ c ∈ digits, isPlain c = true) (lead : Int) :
    ∀ c ∈ scientific digits lead, isPlain c = true := by
  unfold scientific
  split
  · simp
  · exact List.forall_mem_cons.2 ⟨h _ List.mem_cons_self, isPlain_of_mem_exponent lead⟩
  · rw [List.forall_mem_cons] at h
    exact List.forall_mem_append.2 ⟨List.forall_mem_cons.2 ⟨h.1, List.forall_mem_cons.2
      ⟨rfl, h.2⟩⟩, isPlain_of_mem_exponent lead⟩

theorem isPlain_of_mem_render (layout : Layout) (d : Scaled) :
    ∀ c ∈ layout.render d, isPlain c = true := by
  have hdigits : ∀ c ∈ d.digits, isPlain c = true := fun c hc =>
    isPlain_of_isDigit (isDigit_of_mem_digits d c hc)
  unfold render
  split
  · exact isPlain_of_mem_positional hdigits d.lead
  · exact isPlain_of_mem_scientific hdigits d.lead

/-- A double is written with printable characters if the words for those that are not finite are. -/
theorem isPlain_of_mem_text (hinfinity : ∀ c ∈ layout.infinity.toList, isPlain c = true)
    (hnan : ∀ c ∈ layout.notANumber.toList, isPlain c = true) (choose : Binary → Scaled)
    (x : Float) : ∀ c ∈ (layout.text choose x).toList, isPlain c = true := by
  have hsign : ∀ c ∈ (if signBit x then ['-'] else []), isPlain c = true := by
    split
    · exact List.all_eq_true.1 rfl
    · simp
  unfold text
  dsimp only
  split
  · rw [String.toList_ofList]
    exact List.forall_mem_append.2 ⟨hsign, isPlain_of_mem_render layout _⟩
  · split
    · exact hnan
    · rw [String.toList_append, String.toList_ofList]
      exact List.forall_mem_append.2 ⟨hsign, hinfinity⟩

end Layout

theorem toList_repr (n : Nat) : (Nat.repr n).toList = Nat.toDigits 10 n := String.toList_ofList

theorem isPlain_of_mem_toString (n : Int) : ∀ c ∈ (toString n).toList, isPlain c = true := by
  cases n with
  | ofNat n =>
    show ∀ c ∈ (Nat.repr n).toList, isPlain c = true
    rw [toList_repr]
    exact isPlain_of_mem_toDigits n
  | negSucc n =>
    show ∀ c ∈ ("-" ++ Nat.repr (n + 1)).toList, isPlain c = true
    rw [String.toList_append, toList_repr]
    exact List.forall_mem_append.2 ⟨List.forall_mem_singleton.2 rfl, isPlain_of_mem_toDigits _⟩

end FormulaBook.Decimal

namespace FormulaBook

open Text Decimal

theorem isPlain_of_formatNumber {x : Float} {precision : Int} {s : String}
    (h : formatNumber x precision = .ok s) : ∀ c ∈ s.toList, isPlain c = true := by
  unfold formatNumber at h
  split at h
  · cases h
    exact isPlain_of_mem_toString _
  · obtain ⟨count, -, rfl⟩ := map_eq_ok.1 h
    have hinfinity : ∀ c ∈ "inf".toList, isPlain c = true := List.all_eq_true.1 (by decide)
    have hnan : ∀ c ∈ "nan".toList, isPlain c = true := List.all_eq_true.1 (by decide)
    exact Layout.isPlain_of_mem_text hinfinity hnan _ x

end FormulaBook
