import FormulaBook.Decimal.Numeral
import FormulaBook.Proofs.Lexing.Lexemes
import FormulaBook.Proofs.Text.Trimmed

/-!
# Numerals without blanks

A text that reads as a double may have blanks at its ends, but it has none within it.

* `asciiDigit_of_isBlank`: a blank is no digit of any script;
* `mem_of_ungrouped?`: what is left of a numeral without its underscores;
* `not_isBlank_of_exponent?`, `not_isBlank_of_magnitude?`, `not_isBlank_of_word?`: the characters of
  the parts of a numeral;
* `not_isBlank_of_toFloat?`, `toFloat?_trim_eq_none`: texts that read as doubles, and texts that do
  not because of a blank.
-/

namespace FormulaBook.Decimal

open Text

/-! ### Characters -/

section Characters

variable {c : Char}

theorem not_isBlank_of_isDigit (h : isDigit c = true) : isBlank c = false :=
  not_isBlank_of_isNumberChar (by rw [isNumberChar, h, Bool.true_or])

/-- No block of digits of a script has a blank in it. -/
theorem asciiDigit_of_isBlank (h : isBlank c = true) : asciiDigit c = c := by
  have hblocks : ∀ first ∈ digitZeros, first = 0x30 ∨ 0xA0 < first ∧
      (first + 10 ≤ 0x1680 ∨ 0x1680 < first) ∧ (first + 10 ≤ 0x2000 ∨ 0x3000 < first) := by
    decide
  have hnone : digitValue? c = none := by
    rw [digitValue?, Option.map_eq_none_iff, List.find?_eq_none]
    intro first hfirst hin
    have hblock := hblocks first hfirst
    simp only [isBlank, Bool.or_eq_true, Bool.and_eq_true, decide_eq_true_eq, beq_iff_eq] at h hin
    omega
  rw [asciiDigit, hnone]

theorem toLower_of_isBlank (h : isBlank c = true) : c.toLower = c := by
  have hsmall : ¬ (c.val ≥ 'A'.val ∧ c.val ≤ 'Z'.val) := by
    rintro ⟨hlow, hhigh⟩
    have hstart : isNameStart c = true := by
      simpa [isNameStart, Char.le_def] using ⟨hlow, hhigh⟩
    rw [not_isBlank_of_isNameChar (isNameChar_of_isNameStart hstart)] at h
    cases h
  exact dif_neg hsmall

end Characters

/-! ### Parts of a numeral -/

section Parts

variable {l : List Char} {c : Char}

/-- Without its underscores a numeral has all its other characters. -/
theorem mem_of_ungrouped? {flag : Bool} {l' : List Char} (h : ungrouped? flag l = some l')
    (hc : c ∈ l) (hne : c ≠ '_') : c ∈ l' := by
  fun_induction ungrouped? flag l generalizing l' with
  | case1 => cases hc
  | case2 d rest hdigit ih =>
    obtain ⟨tail, htail, rfl⟩ := Option.map_eq_some_iff.1 h
    rcases List.mem_cons.1 hc with rfl | hc
    · exact absurd rfl hne
    rcases List.mem_cons.1 hc with rfl | hc
    · exact List.mem_cons_self
    · exact List.mem_cons_of_mem d (ih htail hc)
  | case3 => cases h
  | case4 => cases h
  | case5 flag d rest _ _ ih =>
    obtain ⟨tail, htail, rfl⟩ := Option.map_eq_some_iff.1 h
    rcases List.mem_cons.1 hc with rfl | hc
    · exact List.mem_cons_self
    · exact List.mem_cons_of_mem d (ih htail hc)

theorem mem_signed (hc : c ∈ l) : c = '-' ∨ c = '+' ∨ c ∈ (signed l).2 := by
  unfold signed
  split
  · exact (List.mem_cons.1 hc).imp id .inr
  · exact .inr (List.mem_cons.1 hc)
  · exact .inr (.inr hc)

/-- A sign in front of a text adds no blank to it. -/
theorem not_isBlank_of_signed (h : ∀ c ∈ (signed l).2, isBlank c = false) :
    ∀ c ∈ l, isBlank c = false := by
  intro c hc
  rcases mem_signed hc with rfl | rfl | hc
  · rfl
  · rfl
  · exact h c hc

theorem not_isBlank_of_exponent? {e : Int} (h : exponent? l = some e) :
    ∀ c ∈ l, isBlank c = false := by
  cases l with
  | nil => simp
  | cons d rest =>
    rw [exponent?] at h
    dsimp only at h
    split at h
    · rename_i hparts
      simp only [Bool.and_eq_true, Bool.or_eq_true, beq_iff_eq, List.all_eq_true] at hparts
      obtain ⟨⟨hletter, -⟩, hdigits⟩ := hparts
      refine List.forall_mem_cons.2 ⟨?_, not_isBlank_of_signed fun c hc => ?_⟩
      · rcases hletter with rfl | rfl <;> rfl
      · exact not_isBlank_of_isDigit (hdigits c hc)
    · cases h

/-- A row of digits in front of a text adds no blank to it. -/
theorem not_isBlank_of_dropWhile (h : ∀ c ∈ l.dropWhile isDigit, isBlank c = false) :
    ∀ c ∈ l, isBlank c = false := by
  rw [← List.takeWhile_append_dropWhile (p := isDigit) (l := l), List.forall_mem_append]
  exact ⟨fun c hc => not_isBlank_of_isDigit (List.mem_takeWhile_imp hc), h⟩

theorem not_isBlank_of_magnitude? {x : Float} (h : magnitude? l = some x) :
    ∀ c ∈ l, isBlank c = false := by
  refine not_isBlank_of_dropWhile ?_
  rw [magnitude?] at h
  generalize l.dropWhile isDigit = rest at h ⊢
  dsimp only at h
  split at h
  · -- A point, and the digits after it.
    split at h
    · cases h
    obtain ⟨e, he, -⟩ := Option.map_eq_some_iff.1 h
    exact List.forall_mem_cons.2 ⟨rfl, not_isBlank_of_dropWhile (not_isBlank_of_exponent? he)⟩
  · split at h
    · cases h
    obtain ⟨e, he, -⟩ := Option.map_eq_some_iff.1 h
    exact not_isBlank_of_exponent? he

theorem not_isBlank_of_word? {x : Float} (h : word? l = some x) : ∀ c ∈ l, isBlank c = false := by
  have hletters : ∀ c ∈ l.map Char.toLower, isBlank c = false := by
    have hwords : ∀ word ∈ ["inf", "infinity", "nan"],
        word.toList.all (fun c => !isBlank c) = true := by
      decide
    have hspell (word : String) (heq : String.ofList (l.map Char.toLower) = word)
        (hword : word ∈ ["inf", "infinity", "nan"]) :
        ∀ c ∈ l.map Char.toLower, isBlank c = false := by
      rw [← String.toList_ofList (l := l.map Char.toLower), heq]
      exact fun c hc => by simpa using List.all_eq_true.1 (hwords word hword) c hc
    unfold word? at h
    split at h
    · exact hspell "inf" ‹_› (by simp)
    · exact hspell "infinity" ‹_› (by simp)
    · exact hspell "nan" ‹_› (by simp)
    · cases h
  intro c hc
  cases hblank : isBlank c with
  | false => rfl
  | true =>
    have hlower := hletters c.toLower (List.mem_map.2 ⟨c, hc, rfl⟩)
    rw [toLower_of_isBlank hblank, hblank] at hlower
    cases hlower

theorem not_isBlank_of_signedFloat? {x : Float} (h : signedFloat? l = some x) :
    ∀ c ∈ l, isBlank c = false := by
  rw [signedFloat?] at h
  obtain ⟨y, hy, -⟩ := Option.map_eq_some_iff.1 h
  refine not_isBlank_of_signed ?_
  rcases Option.or_eq_some_iff.1 hy with hword | ⟨-, hmagnitude⟩
  · exact not_isBlank_of_word? hword
  · exact not_isBlank_of_magnitude? hmagnitude

end Parts

/-! ### Texts that read as doubles -/

/-- A text that reads as a double has blanks at its ends only. -/
theorem not_isBlank_of_toFloat? {s : String} {x : Float} (h : toFloat? s = some x) :
    ∀ c ∈ trimBy isNumeralBlank s.toList, isBlank c = false := by
  obtain ⟨l, hl, hx⟩ := Option.bind_eq_some_iff.1 h
  intro c hc
  cases hblank : isBlank c with
  | false => rfl
  | true =>
    -- A blank is not changed, and it is no underscore, so it is still there when the text is read.
    have hmem : c ∈ numeralChars s := List.mem_map.2 ⟨c, hc, asciiDigit_of_isBlank hblank⟩
    have hne : c ≠ '_' := by
      rintro rfl
      cases hblank
    have hnot := not_isBlank_of_signedFloat? hx c (mem_of_ungrouped? hl hmem hne)
    rw [hblank] at hnot
    cases hnot

/-- A text with a blank that is not at its ends reads as no double. -/
theorem toFloat?_trim_eq_none {s : String} {c : Char} (hc : c ∈ (trim s).toList)
    (hblank : isBlank c = true) : toFloat? (trim s) = none := by
  have hends : trimBy isNumeralBlank (trim s).toList = (trim s).toList := by
    have hnot : ∀ c, isBlank c = false → isNumeralBlank c = false := fun c h => by
      rw [isNumeralBlank, h, Bool.false_and]
    rw [toList_trim]
    exact trimBy_eq_self (fun c hc => hnot c (head_trimBy c hc))
      fun c hc => hnot c (getLast_trimBy c hc)
  cases hx : toFloat? (trim s) with
  | none => rfl
  | some x =>
    have hinside := not_isBlank_of_toFloat? hx
    rw [hends] at hinside
    rw [hinside c hc] at hblank
    cases hblank

end FormulaBook.Decimal
