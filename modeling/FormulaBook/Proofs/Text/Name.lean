import FormulaBook.Proofs.Lexing.Scan
import FormulaBook.Proofs.Text.Trimmed
import FormulaBook.Proofs.Text.Uppercase
import FormulaBook.Validation

/-!
# Names in capital letters

A name is stored in capital letters and without blanks at its ends. To store a name once more
changes nothing.

* `normalizeName_of_isNameChars`: a name is stored as it is;
* `trim_normalizeName`, `normalizeName_normalizeName`: a stored name has no blanks at its ends and
  is stored as it is;
* `isNameChars_normalizeName`: a stored name has no line feed at its end;
* `tokenize_of_isNameChars`: a name is one token.
-/

namespace FormulaBook

open Text

/-! ### Characters -/

section Characters

variable {c : Char}

theorem toNat_of_isNameChar (h : isNameChar c = true) : c.toNat < 0x80 := by
  rw [isNameChar, Bool.or_eq_true, Bool.or_eq_true, beq_iff_eq] at h
  obtain (hletter | hdigit) | rfl := h
  · simp only [isNameStart, Bool.and_eq_true, decide_eq_true_eq, Char.le_def,
      UInt32.le_iff_toNat_le] at hletter
    exact Nat.lt_of_le_of_lt hletter.2 (by decide)
  · have hrange := toNat_of_isDigit hdigit
    omega
  · decide

theorem upperChar_of_isNameChar (h : isNameChar c = true) : upperChar c = [c] :=
  forall_ascii (P := fun c => isNameChar c = true → upperChar c = [c]) (by decide +kernel)
    (toNat_of_isNameChar h) h

end Characters

/-! ### Names -/

section Names

variable {s : String}

theorem isNameChar_of_isNameChars {l : List Char} (h : isNameChars l = true) :
    ∀ c ∈ l, isNameChar c = true := by
  cases l with
  | nil => simp
  | cons c rest =>
    rw [isNameChars, Bool.and_eq_true] at h
    exact List.forall_mem_cons.2 ⟨by rw [isNameChar, h.1]; rfl, List.all_eq_true.1 h.2⟩

theorem trim_of_isNameChars (h : isNameChars s.toList = true) : trim s = s := by
  rw [← String.toList_inj, toList_trim]
  exact trimBy_eq_self_of_forall fun c hc =>
    not_isBlank_of_isNameChar (isNameChar_of_isNameChars h c hc)

theorem upper_of_isNameChars (h : isNameChars s.toList = true) : upper s = s := by
  rw [← String.toList_inj, toList_upper]
  have hsingle : ∀ c ∈ s.toList, upperChar c = [c] := fun c hc =>
    upperChar_of_isNameChar (isNameChar_of_isNameChars h c hc)
  rw [List.flatMap_congr hsingle, List.flatMap_singleton']

/-- A name is stored as it is. -/
theorem normalizeName_of_isNameChars (h : isNameChars s.toList = true) : normalizeName s = s := by
  rw [normalizeName, trim_of_isNameChars h, upper_of_isNameChars h]

/-- The first character of a text in capital letters comes from the first one of the text. -/
theorem exists_head_flatMap_upperChar {l : List Char} {d : Char}
    (h : d ∈ (l.flatMap upperChar).head?) : ∃ c ∈ l.head?, d ∈ upperChar c := by
  cases l with
  | nil => cases h
  | cons c l =>
    rw [List.flatMap_cons, List.head?_append_of_ne_nil _ (upperChar_ne_nil c)] at h
    exact ⟨c, rfl, List.mem_of_mem_head? h⟩

/-- The last character of a text in capital letters comes from the last one of the text. -/
theorem exists_getLast_flatMap_upperChar {l : List Char} {d : Char}
    (h : d ∈ (l.flatMap upperChar).getLast?) : ∃ c ∈ l.getLast?, d ∈ upperChar c := by
  cases l using List.reverseRecOn with
  | nil => cases h
  | append_singleton l c =>
    rw [List.flatMap_append, List.flatMap_singleton,
      List.getLast?_append_of_ne_nil _ (upperChar_ne_nil c)] at h
    exact ⟨c, List.getLast?_concat, List.mem_of_getLast? h⟩

/-- A stored name has no blanks at its ends: a text without blanks at its ends has none in capital
letters. -/
theorem trim_normalizeName (s : String) : trim (normalizeName s) = normalizeName s := by
  rw [← String.toList_inj, toList_trim, normalizeName, toList_upper, toList_trim]
  refine trimBy_eq_self (fun d hd => ?_) fun d hd => ?_
  · obtain ⟨c, hc, hd⟩ := exists_head_flatMap_upperChar hd
    exact not_isBlank_of_mem_upperChar (head_trimBy c hc) hd
  · obtain ⟨c, hc, hd⟩ := exists_getLast_flatMap_upperChar hd
    exact not_isBlank_of_mem_upperChar (getLast_trimBy c hc) hd

/-- A stored name is stored as it is. -/
theorem normalizeName_normalizeName (s : String) :
    normalizeName (normalizeName s) = normalizeName s := by
  have hupper : normalizeName (normalizeName s) = upper (trim (normalizeName s)) := rfl
  rw [hupper, trim_normalizeName, normalizeName, upper_upper]

/-- No text is stored with a line feed at its end. -/
theorem getLast_normalizeName (s : String) : (normalizeName s).toList.getLast? ≠ some '\n' := by
  intro hlast
  rw [← trim_normalizeName, toList_trim] at hlast
  cases getLast_trimBy '\n' hlast

/-- A stored name is one to its end. -/
theorem isNameChars_normalizeName (h : isName (normalizeName s) = true) :
    isNameChars (normalizeName s).toList = true := by
  rw [isName, Bool.or_eq_true, Bool.and_eq_true, beq_iff_eq] at h
  exact h.resolve_right fun hbreak => getLast_normalizeName s hbreak.1

end Names

/-! ### Names in expressions -/

theorem isLexeme_of_isNameChars {l : List Char} (h : isNameChars l = true) :
    IsLexeme (some .identifier) l := by
  cases l with
  | nil => cases h
  | cons c rest =>
    obtain ⟨hstart, hrest⟩ := Bool.and_eq_true_iff.1 h
    exact .identifier hstart (List.all_eq_true.1 hrest)

/-- A name is one token, which begins with the text. -/
theorem tokenize_of_isNameChars {name : String} (h : isNameChars name.toList = true) :
    tokenize name = .ok [{ kind := .identifier, text := name, position := some 0 }] := by
  refine tokenize_eq_ok.2 ⟨[⟨some .identifier, name.toList, isLexeme_of_isNameChars h⟩], ?_,
    List.isChain_singleton _, ?_⟩
  · simp
  · simp [tokensFrom, Piece.tokens]

end FormulaBook
