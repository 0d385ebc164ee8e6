import FormulaBook.Proofs.Arithmetic.Matching
import FormulaBook.Proofs.Lexing.Spacing

/-!
# Characters that have no place in a text without names

A text that is evaluated by itself has numbers, operators, parentheses and blanks. It is refused for
the first character that is none of these and for no other, since a row of numbers and operators is
never refused for a character. The position that is told is that of the character in the text
without its blanks, so it is the position in the text only where no blank stands before.

* `FirstForeign`: the first character of a text that has no place in it;
* `evaluateTokens_ne_invalidCharacter`: what a row of numbers and operators is not refused for;
* `evaluate_of_firstForeign`, `evaluate_ne_invalidCharacter`: texts with such a character, and texts
  without one;
* `evaluate_eq_invalidCharacter`: when a text is refused for a character, and which position is
  told.
-/

namespace FormulaBook

open Text

/-- `c` is the first character of a text that is no blank and none of the characters of a text
without names; the characters in front of it are `before`. -/
structure FirstForeign (text : String) (before : List Char) (c : Char) : Prop where
  exists_after : ∃ after, text.toList = before ++ c :: after
  before_known : ∀ d ∈ before, isBlank d = true ∨ isArithmeticChar d = true
  not_isBlank : isBlank c = false
  not_isArithmeticChar : isArithmeticChar c = false

/-- A text has a first character that has no place in it, or all its characters have one. -/
theorem exists_firstForeign (text : String) : (∃ before c, FirstForeign text before c) ∨
    ∀ c ∈ text.toList, isBlank c = true ∨ isArithmeticChar c = true := by
  cases h : text.toList.find? fun c => !(isBlank c || isArithmeticChar c) with
  | none =>
    refine .inr fun c hc => ?_
    have hknown := List.find?_eq_none.1 h c hc
    simpa only [Bool.not_eq_true', Bool.not_eq_false, Bool.or_eq_true] using hknown
  | some c =>
    obtain ⟨hc, before, after, hsplit, hbefore⟩ := List.find?_eq_some_iff_append.1 h
    simp only [Bool.not_eq_true', Bool.or_eq_false_iff] at hc
    exact .inl ⟨before, c, ⟨after, hsplit⟩, by simpa using hbefore, hc.1, hc.2⟩

/-! ### Rows of numbers and operators -/

theorem Yard.step_ne_invalidCharacter {y : Yard} {t : Token} (hname : t.isUnreplaced = false)
    (p : Option Int) : y.step t ≠ .error (.invalidCharacter p) := by
  intro h
  unfold Yard.step at h
  cases hk : t.kind with
  | number | lparen => simp [hk] at h
  | operator | rparen =>
    simp only [hk] at h
    split at h <;> cases h
  | identifier | placeholder => simp [Token.isUnreplaced, hk] at hname

theorem evaluateStep_ne_invalidCharacter {stack : List Float} {t : Token}
    (hname : t.isUnreplaced = false) (hwritten : t.isWritten = true) (p : Option Int) :
    evaluateStep stack t ≠ .error (.invalidCharacter p) := by
  intro h
  unfold evaluateStep at h
  cases hk : t.kind with
  | number =>
    simp only [hk] at h
    cases number_eq_error (map_eq_error.1 h)
  | operator =>
    simp only [hk] at h
    split at h
    · split at h
      · cases (apply_eq_error (map_eq_error.1 h)).2.2
      · cases h
    · cases h
  | lparen | rparen => simp [Token.isWritten, hk] at hwritten
  | identifier | placeholder => simp [Token.isUnreplaced, hk] at hname

/-- A row of numbers, operators and parentheses is not refused for a character. -/
theorem evaluateTokens_ne_invalidCharacter {tokens : List Token}
    (hname : ∀ t ∈ tokens, t.isUnreplaced = false) (p : Option Int) :
    evaluateTokens tokens ≠ .error (.invalidCharacter p) := by
  intro h
  have hjoined : ∀ t ∈ mergeLiterals tokens, t.isUnreplaced = false :=
    forall_mem_mergeLiterals (fun a b _ ha => ha) hname
  rw [evaluateTokens] at h
  obtain hread | ⟨row, hrow, hrun⟩ := bind_eq_error.1 h
  · rw [toPostfix] at hread
    obtain hread | ⟨y, -, hfinish⟩ := bind_eq_error.1 hread
    · refine foldlM_error (P := (· ≠ .invalidCharacter p)) (fun t ht y e he heq => ?_) hread rfl
      exact Yard.step_ne_invalidCharacter (hjoined t ht) p (heq ▸ he)
    · unfold Yard.finish at hfinish
      split at hfinish <;> cases hfinish
  · -- In postfix order no parenthesis is left.
    have hperm := (perm_toPostfix hrow).1
    rw [evaluatePostfix] at hrun
    obtain hrun | ⟨stack, -, hvalue⟩ := bind_eq_error.1 hrun
    · refine foldlM_error (P := (· ≠ .invalidCharacter p)) (fun t ht stack e he heq => ?_) hrun rfl
      obtain ⟨hmem, hwritten⟩ := List.mem_filter.1 (hperm.subset ht)
      exact evaluateStep_ne_invalidCharacter (hjoined t hmem) hwritten p (heq ▸ he)
    · unfold theValue at hvalue
      split at hvalue <;> cases hvalue

/-! ### Texts -/

section Texts

variable {text : String} {before : List Char} {c : Char}

/-- A text is refused for the first character that has no place in it. -/
theorem evaluate_of_firstForeign (h : FirstForeign text before c) :
    evaluate text = .error (.invalidCharacter (some (before.countP (!isBlank ·)))) := by
  obtain ⟨⟨after, hsplit⟩, hbefore, hblank, harith⟩ := h
  have hfront : (before.filter (!isBlank ·)).findIdx? (!isArithmeticChar ·) = none := by
    rw [List.findIdx?_eq_none_iff]
    intro d hd
    obtain ⟨hmem, hd⟩ := List.mem_filter.1 hd
    simp [(hbefore d hmem).resolve_left (by simpa using hd)]
  have hfound : (text.toList.filter (!isBlank ·)).findIdx? (!isArithmeticChar ·) =
      some (before.countP (!isBlank ·)) := by
    rw [hsplit, List.filter_append, List.filter_cons_of_pos (by simp [hblank]),
      List.findIdx?_append, hfront, List.findIdx?_cons]
    simp [harith, List.countP_eq_length_filter]
  simp only [evaluate, hfound]

/-- A text in which all characters have a place is not refused for a character. -/
theorem evaluate_ne_invalidCharacter
    (h : ∀ c ∈ text.toList, isBlank c = true ∨ isArithmeticChar c = true) (p : Option Int) :
    evaluate text ≠ .error (.invalidCharacter p) := by
  have harith : ∀ c ∈ text.toList.filter (!isBlank ·), isArithmeticChar c = true := by
    intro c hc
    obtain ⟨hmem, hblank⟩ := List.mem_filter.1 hc
    exact (h c hmem).resolve_left (by simpa using hblank)
  obtain ⟨row, hrow⟩ := exists_numericRow fun c hc => .inl (harith c hc)
  have hsame : (String.ofList (text.toList.filter (!isBlank ·))).toList =
      text.toList.filter (!isBlank ·) := String.toList_ofList
  have htokens := NumericRow.tokenize (hsame.symm ▸ hrow)
  rw [evaluate_of_forall harith, htokens]
  refine evaluateTokens_ne_invalidCharacter (fun t ht => ?_) p
  obtain ⟨hname, hplaceholder⟩ := hrow.kind_ne t ht
  simp [Token.isUnreplaced, hname, hplaceholder]

/-- **For which character a text is refused**: for the first one that is no blank and none of the
characters of a text without names. The position that is told counts the characters before it that
are no blanks, so it is the place of the character in the text if and only if no blank stands before
it. -/
theorem evaluate_eq_invalidCharacter (text : String) :
    (∀ p, evaluate text = .error (.invalidCharacter p) ↔ ∃ before c,
      FirstForeign text before c ∧ p = some (before.countP (!isBlank ·) : Int)) ∧
    ∀ before c, FirstForeign text before c →
      (evaluate text = .error (.invalidCharacter (some before.length)) ↔
        ∀ d ∈ before, isBlank d = false) := by
  refine ⟨fun p => ⟨fun h => ?_, ?_⟩, fun before c h => ?_⟩
  · obtain ⟨before, c, hforeign⟩ | hknown := exists_firstForeign text
    · refine ⟨before, c, hforeign, ?_⟩
      rw [evaluate_of_firstForeign hforeign] at h
      cases h
      rfl
    · exact absurd h (evaluate_ne_invalidCharacter hknown p)
  · rintro ⟨before, c, hforeign, rfl⟩
    exact evaluate_of_firstForeign hforeign
  · rw [evaluate_of_firstForeign h]
    simp only [Except.error.injEq, EvalError.invalidCharacter.injEq, Option.some.injEq,
      Int.natCast_inj, List.countP_eq_length, Bool.not_eq_true']

/-- A letter behind a blank. -/
theorem evaluate_eq_invalidCharacter_behind : FirstForeign "1 a" ['1', ' '] 'a' ∧
    evaluate "1 a" = .error (.invalidCharacter (some 1)) ∧
    evaluate "1 a" ≠ .error (.invalidCharacter (some 2)) := by
  have hknown : ∀ d ∈ ['1', ' '], isBlank d = true ∨ isArithmeticChar d = true :=
    List.forall_mem_cons.2 ⟨.inr (by decide), List.forall_mem_singleton.2 (.inl (by decide))⟩
  have h : FirstForeign "1 a" ['1', ' '] 'a' := ⟨⟨[], rfl⟩, hknown, by decide, by decide⟩
  obtain ⟨hposition, hplace⟩ := evaluate_eq_invalidCharacter "1 a"
  refine ⟨h, (hposition _).2 ⟨_, _, h, rfl⟩, fun heval => ?_⟩
  exact absurd ((hplace _ _ h).1 heval ' ' (by simp)) (by decide)

end Texts

end FormulaBook
