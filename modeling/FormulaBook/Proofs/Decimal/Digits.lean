import FormulaBook.Decimal.Numeral
import FormulaBook.Proofs.Text.Ascii
import FormulaBook.Text.Quoted

/-!
# Digits

The digits of a whole number in base ten, and of a UTF-16 unit in base sixteen. They are printable,
they read as the number, and the first of them is no zero unless the number is zero.

* `mem_toDigits`, `exists_toDigits`: which characters are digits, and which of them come first;
* `natOfDigits_toDigits`: the value of the digits of a number;
* `length_toDigits_of_not_isLong`: the digits of a number that is not too long;
* `hex_succ`, `hex_four`: the four digits of a unit.
-/

namespace FormulaBook.Decimal

open Text

theorem mem_toDigits {b n : Nat} (hb : 1 < b) {c : Char} (h : c ∈ Nat.toDigits b n) :
    ∃ k, k < b ∧ c = k.digitChar := by
  induction n using Nat.strongRecOn with
  | ind n ih =>
    by_cases hn : n < b
    · rw [Nat.toDigits_of_lt_base hn, List.mem_singleton] at h
      exact ⟨n, hn, h⟩
    · rw [Nat.toDigits_of_base_le hb (Nat.le_of_not_lt hn), List.mem_append,
        List.mem_singleton] at h
      rcases h with h | h
      · exact ih (n / b) (Nat.div_lt_self (by omega) hb) h
      · exact ⟨n % b, Nat.mod_lt n (by omega), h⟩

/-- A number that is not zero begins with a digit that is not zero. -/
theorem exists_toDigits {n : Nat} (hn : n ≠ 0) :
    ∃ k rest, 0 < k ∧ k < 10 ∧ Nat.toDigits 10 n = k.digitChar :: rest := by
  induction n using Nat.strongRecOn with
  | ind n ih =>
    by_cases hlt : n < 10
    · exact ⟨n, [], Nat.pos_of_ne_zero hn, hlt, Nat.toDigits_of_lt_base hlt⟩
    · obtain ⟨k, rest, hpos, hk, hrest⟩ := ih (n / 10) (by omega) (by omega)
      refine ⟨k, rest ++ [(n % 10).digitChar], hpos, hk, ?_⟩
      rw [Nat.toDigits_of_base_le (by omega) (Nat.le_of_not_lt hlt), hrest, List.cons_append]

theorem isDigit_digitChar : ∀ k < 10, isDigit k.digitChar = true := by decide

theorem isPlain_digitChar : ∀ k < 16, isPlain k.digitChar = true := by decide

theorem digitChar_ne_zero : ∀ k < 10, 0 < k → k.digitChar ≠ '0' := by decide

theorem isPlain_of_isDigit {c : Char} (h : isDigit c = true) : isPlain c = true := by
  have hbounds := toNat_of_isDigit h
  rw [isPlain_iff]
  omega

theorem isDigit_of_mem_toDigits {n : Nat} : ∀ c ∈ Nat.toDigits 10 n, isDigit c = true := by
  intro c hc
  obtain ⟨k, hk, rfl⟩ := mem_toDigits (by omega) hc
  exact isDigit_digitChar k hk

theorem natOfDigits_toDigits (n : Nat) : natOfDigits (Nat.toDigits 10 n) = n := by
  have h : natOfDigits (Nat.toDigits 10 n) = Nat.ofDigitChars 10 (Nat.toDigits 10 n) 0 := by
    rw [natOfDigits, Nat.ofDigitChars_eq_foldl]
    simp only [digitValue, Nat.mul_comm]
  rw [h, Nat.ofDigitChars_ten_toDigits]

theorem length_toDigits_le {k n : Nat} (hk : 0 < k) (h : n < Nat.pow 10 k) :
    (Nat.toDigits 10 n).length ≤ k :=
  (Nat.length_toDigits_le_iff (by omega) hk).2 h

/-- A number that is not too long has not too many digits. -/
theorem length_toDigits_of_not_isLong {n : Int} (h : isLong n = false) :
    (Nat.toDigits 10 n.natAbs).length ≤ digitLimit := by
  rw [isLong, decide_eq_false_iff_not, Nat.not_le] at h
  exact length_toDigits_le (by decide) h

/-! ### Units -/

theorem isPlain_of_mem_hex {w n : Nat} : ∀ c ∈ hex w n, isPlain c = true := by
  intro c hc
  simp only [hex, List.mem_append] at hc
  rcases hc with hc | hc
  · rw [List.eq_of_mem_replicate hc]
    rfl
  · obtain ⟨k, hk, rfl⟩ := mem_toDigits (by omega) hc
    exact isPlain_digitChar k hk

theorem hex_one {n : Nat} (h : n < 16) : hex 1 n = [n.digitChar] := by
  simp [hex, Nat.toDigits_of_lt_base h]

/-- The last digit follows on the digits of the quotient. -/
theorem hex_succ {w : Nat} (hw : 0 < w) (n : Nat) :
    hex (w + 1) n = hex w (n / 16) ++ [(n % 16).digitChar] := by
  by_cases h : n < 16
  · obtain ⟨v, rfl⟩ := Nat.exists_eq_add_one_of_ne_zero (Nat.ne_of_gt hw)
    have hquotient : n / 16 = 0 := by omega
    have hlast : n % 16 = n := by omega
    simp [hex, Nat.toDigits_of_lt_base h, hquotient, hlast, List.replicate_succ']
  · rw [hex, hex, Nat.toDigits_of_base_le (by omega) (Nat.le_of_not_lt h)]
    simp

/-- The four digits of a unit. -/
theorem hex_four {n : Nat} (h : n < 0x10000) : hex 4 n = [(n / 4096).digitChar,
    (n / 256 % 16).digitChar, (n / 16 % 16).digitChar, (n % 16).digitChar] := by
  have hsecond : n / 16 / 16 = n / 256 := by omega
  have hfirst : n / 256 / 16 = n / 4096 := by omega
  rw [hex_succ (by omega), hex_succ (by omega), hex_succ (by omega), hsecond, hfirst,
    hex_one (by omega)]
  rfl

end FormulaBook.Decimal
