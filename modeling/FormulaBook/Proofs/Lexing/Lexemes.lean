import FormulaBook.Token.Lexer
import Mathlib.Data.List.TakeWhile

/-!
# Lexemes

What a text is made of: runs of blanks, numbers, names, operators, parentheses and placeholders. The
lexeme at the front of a text is the one that stands there, if the text does not go on with a
character that would make it longer.

* `IsLexeme`: the characters of a lexeme;
* `Piece`, `spell`: lexemes and the text that they make up;
* `Apart`, `Spaced`: two neighbours that are not both words, and two that are not both blanks;
* `lexeme?_eq_some`: a lexeme at the front of a text is found there;
* `isLexeme_of_lexeme?`: what is found at the front of a text is a lexeme.
-/

namespace FormulaBook

open Text

/-! ### Characters of different lexemes -/

section Classes

variable {c : Char}

theorem not_of_isLayout (h : isLayout c = true) :
    isNumberChar c = false ∧ isNameChar c = false := by
  simp only [isLayout, Bool.or_eq_true, beq_iff_eq] at h
  obtain (((rfl | rfl) | rfl) | rfl) | rfl := h <;> decide

theorem not_of_isOperatorChar (h : isOperatorChar c = true) :
    isLayout c = false ∧ isNumberChar c = false ∧ isNameChar c = false := by
  simp only [isOperatorChar, Bool.or_eq_true, beq_iff_eq] at h
  obtain ((rfl | rfl) | rfl) | rfl := h <;> decide

theorem isNameChar_of_isNameStart (h : isNameStart c = true) : isNameChar c = true := by
  simp [isNameChar, h]

theorem not_isLayout_of_isNumberChar (h : isNumberChar c = true) : isLayout c = false := by
  by_contra hlayout
  simp [(not_of_isLayout (by simpa using hlayout)).1] at h

theorem not_isLayout_of_isNameChar (h : isNameChar c = true) : isLayout c = false := by
  by_contra hlayout
  simp [(not_of_isLayout (by simpa using hlayout)).2] at h

theorem not_isBlank_of_isNumberChar (h : isNumberChar c = true) : isBlank c = false := by
  rw [isNumberChar, Bool.or_eq_true, beq_iff_eq] at h
  obtain hdigit | rfl := h
  · have hrange := toNat_of_isDigit hdigit
    simp only [isBlank, Bool.or_eq_false_iff, Bool.and_eq_false_iff, decide_eq_false_iff_not,
      beq_eq_false_iff_ne]
    omega
  · rfl

theorem not_isBlank_of_isNameChar (h : isNameChar c = true) : isBlank c = false := by
  simp only [isNameChar, isNameStart, Bool.or_eq_true, Bool.and_eq_true, decide_eq_true_eq,
    beq_iff_eq, Char.le_def, UInt32.le_iff_toNat_le] at h
  obtain (hstart | hdigit) | rfl := h
  · have hlow : 0x41 ≤ c.toNat := hstart.1
    have hhigh : c.toNat ≤ 0x5A := hstart.2
    simp only [isBlank, Bool.or_eq_false_iff, Bool.and_eq_false_iff, decide_eq_false_iff_not,
      beq_eq_false_iff_ne]
    omega
  · exact not_isBlank_of_isNumberChar (by rw [isNumberChar, hdigit, Bool.true_or])
  · rfl

theorem not_isBlank_of_isOperatorChar (h : isOperatorChar c = true) : isBlank c = false := by
  simp only [isOperatorChar, Bool.or_eq_true, beq_iff_eq] at h
  obtain ((rfl | rfl) | rfl) | rfl := h <;> rfl

theorem not_isNumberChar_of_isNameStart (h : isNameStart c = true) : isNumberChar c = false := by
  have hstart : ('A' : Char).val.toNat ≤ c.val.toNat := by
    simp only [isNameStart, Bool.and_eq_true, decide_eq_true_eq, Char.le_def,
      UInt32.le_iff_toNat_le] at h
    exact h.1
  have hdigit : ¬ c ≤ '9' := by
    rw [Char.le_def, UInt32.le_iff_toNat_le]
    exact fun hc => absurd (hstart.trans hc) (by decide)
  have hpoint : c ≠ '.' := by
    rintro rfl
    exact absurd hstart (by decide)
  simp [isNumberChar, isDigit, hdigit, hpoint]

end Classes

/-! ### Lexemes -/

/-- The characters of a lexeme. Blanks are the lexemes without a kind of token. -/
inductive IsLexeme : Option TokenKind → List Char → Prop
  | blank {l : List Char} (hne : l ≠ []) (h : ∀ c ∈ l, isLayout c = true) : IsLexeme none l
  | number {l : List Char} (hne : l ≠ []) (h : ∀ c ∈ l, isNumberChar c = true) :
      IsLexeme (some .number) l
  | identifier {c : Char} {l : List Char} (hc : isNameStart c = true)
      (h : ∀ d ∈ l, isNameChar d = true) : IsLexeme (some .identifier) (c :: l)
  | operator {c : Char} (h : isOperatorChar c = true) : IsLexeme (some .operator) [c]
  | lparen : IsLexeme (some .lparen) ['(']
  | rparen : IsLexeme (some .rparen) [')']
  | placeholder {name : List Char} (hne : name ≠ []) (h : '}' ∉ name) :
      IsLexeme (some .placeholder) (placeholderChars name)

/-- A lexeme, alone or in a text. -/
structure Piece where
  kind : Option TokenKind
  chars : List Char
  isLexeme : IsLexeme kind chars

namespace Piece

/-- Whether a lexeme is a number or a name. -/
def isWord (p : Piece) : Bool := p.kind.any TokenKind.isWord

theorem chars_ne_nil (p : Piece) : p.chars ≠ [] := by
  obtain ⟨kind, chars, h⟩ := p
  cases h with
  | blank hne => exact hne
  | number hne => exact hne
  | identifier | operator | lparen | rparen | placeholder => simp [placeholderChars]

/-- A lexeme that is no word begins with a character that goes on with no word. -/
theorem head_of_not_isWord {p : Piece} (h : p.isWord = false) :
    ∀ c ∈ p.chars.head?, isNumberChar c = false ∧ isNameChar c = false := by
  obtain ⟨kind, chars, hp⟩ := p
  cases hp with
  | number | identifier => cases h
  | blank hne hl =>
    intro c hc
    exact not_of_isLayout (hl c (List.mem_of_mem_head? hc))
  | operator hop =>
    rintro c ⟨⟩
    exact (not_of_isOperatorChar hop).2
  | lparen | rparen | placeholder =>
    rintro c ⟨⟩
    decide

theorem isLayout_of_kind_eq_none {p : Piece} (h : p.kind = none) :
    ∀ c ∈ p.chars, isLayout c = true := by
  obtain ⟨kind, chars, hp⟩ := p
  cases h
  cases hp with
  | blank _ hl => exact hl

/-- A lexeme that is no run of blanks begins with no blank. -/
theorem head_of_kind_ne_none {p : Piece} (h : p.kind ≠ none) :
    ∀ c ∈ p.chars.head?, isLayout c = false := by
  obtain ⟨kind, chars, hp⟩ := p
  cases hp with
  | blank => exact absurd rfl h
  | number _ hl =>
    intro c hc
    exact not_isLayout_of_isNumberChar (hl c (List.mem_of_mem_head? hc))
  | identifier hstart =>
    rintro c ⟨⟩
    exact not_isLayout_of_isNameChar (isNameChar_of_isNameStart hstart)
  | operator hop =>
    rintro c ⟨⟩
    exact (not_of_isOperatorChar hop).1
  | lparen | rparen | placeholder =>
    rintro c ⟨⟩
    decide

end Piece

/-- Two lexemes that may be neighbours: they are not both words. -/
def Apart (p q : Piece) : Prop := p.isWord = true → q.isWord = false

/-- Two neighbours where each run of blanks is as long as it can be: they are not both blanks. -/
def Spaced (p q : Piece) : Prop := p.kind = none → q.kind ≠ none

/-- The text of a row of lexemes. -/
def spell (pieces : List Piece) : List Char := pieces.flatMap (·.chars)

@[simp] theorem spell_nil : spell [] = [] := rfl

@[simp] theorem spell_cons (p : Piece) (pieces : List Piece) :
    spell (p :: pieces) = p.chars ++ spell pieces := rfl

/-! ### The lexeme at the front -/

section Front

variable {p : Char → Bool} {l rest : List Char}

theorem takeWhile_eq_left (hl : ∀ c ∈ l, p c = true) (hrest : ∀ c ∈ rest.head?, p c = false) :
    (l ++ rest).takeWhile p = l := by
  rw [List.takeWhile_append_of_pos hl]
  cases rest with
  | nil => simp
  | cons c rest => simp [hrest c rfl]

theorem dropWhile_eq_right (hl : ∀ c ∈ l, p c = true) (hrest : ∀ c ∈ rest.head?, p c = false) :
    (l ++ rest).dropWhile p = rest := by
  rw [List.dropWhile_append_of_pos hl]
  cases rest with
  | nil => rfl
  | cons c rest => simp [hrest c rfl]

theorem Lexeme.run_append {c : Char} {kind : Option TokenKind} (hl : ∀ d ∈ l, p d = true)
    (hrest : ∀ d ∈ rest.head?, p d = false) :
    Lexeme.run kind p c (l ++ rest) = ⟨kind, c :: l, rest⟩ := by
  rw [Lexeme.run, takeWhile_eq_left hl hrest, dropWhile_eq_right hl hrest]

theorem placeholder?_cons_eq_none {c : Char} (hc : c ≠ '{') (l : List Char) :
    placeholder? (c :: l) = none := by
  rw [placeholder?]
  simp [hc]

theorem placeholder?_placeholderChars {name : List Char} (hne : name ≠ []) (h : '}' ∉ name)
    (rest : List Char) : placeholder? (placeholderChars name ++ rest) = some (name, rest) := by
  have hinside : ∀ c ∈ name, (c != '}') = true := fun c hc =>
    bne_iff_ne.2 fun heq => h (heq ▸ hc)
  have hclosing : ∀ c ∈ ('}' :: '}' :: rest).head?, (c != '}') = false := by
    rintro c ⟨⟩
    rfl
  have hchars : placeholderChars name ++ rest = '{' :: '{' :: '#' :: (name ++ '}' :: '}' :: rest) := by
    simp [placeholderChars]
  rw [hchars, placeholder?]
  simp only [dropWhile_eq_right hinside hclosing, takeWhile_eq_left hinside hclosing]
  simp [hne]

/-- A lexeme in front of a text is the one that is found there, if it is not a run of characters
that the text goes on with. -/
theorem lexeme?_eq_some (q : Piece) (hblank : q.kind ≠ none)
    (hword : q.isWord = true → ∀ c ∈ rest.head?, isNumberChar c = false ∧ isNameChar c = false) :
    lexeme? (q.chars ++ rest) = some ⟨q.kind, q.chars, rest⟩ := by
  obtain ⟨kind, chars, hq⟩ := q
  cases hq with
  | blank => exact absurd rfl hblank
  | number hne hl =>
    obtain ⟨c, l, rfl⟩ := List.exists_cons_of_ne_nil hne
    rw [List.forall_mem_cons] at hl
    rw [List.cons_append, lexeme?]
    simp only [not_isLayout_of_isNumberChar hl.1, hl.1, Bool.false_eq_true, if_false, if_true]
    rw [Lexeme.run_append hl.2 fun d hd => (hword rfl d hd).1]
  | identifier hc hl =>
    have hlayout := not_isLayout_of_isNameChar (isNameChar_of_isNameStart hc)
    rw [List.cons_append, lexeme?]
    simp only [hlayout, not_isNumberChar_of_isNameStart hc, hc, Bool.false_eq_true, if_false,
      if_true]
    rw [Lexeme.run_append hl fun d hd => (hword rfl d hd).2]
  | @operator c hc =>
    obtain ⟨hlayout, hnumber, hname⟩ := not_of_isOperatorChar hc
    have hstart : isNameStart c = false := by
      by_contra h
      simp [isNameChar_of_isNameStart (by simpa using h)] at hname
    rw [List.singleton_append, lexeme?]
    simp [hlayout, hnumber, hstart, hc]
  | lparen => rfl
  | rparen => rfl
  | @placeholder name hne h =>
    have hfront : placeholderChars name ++ rest =
        '{' :: ('{' :: '#' :: name ++ ['}', '}'] ++ rest) := rfl
    have hfound := placeholder?_placeholderChars hne h rest
    rw [hfront] at hfound ⊢
    rw [lexeme?, hfound]
    rfl

theorem isLexeme_placeholder {name : List Char} (h : placeholder? l = some (name, rest)) :
    IsLexeme (some .placeholder) (placeholderChars name) := by
  unfold placeholder? at h
  split at h
  · rename_i l
    split at h
    · dsimp only at h
      split at h
      · cases h
      · rename_i hne
        cases h
        refine .placeholder (by simpa using hne) fun hc => ?_
        simpa using List.mem_takeWhile_imp hc
    · cases h
  · cases h

/-- A run of blanks at the front of a text goes on as far as it can. -/
theorem head_rest_of_lexeme? {x : Lexeme} (h : lexeme? l = some x) (hk : x.kind = none) :
    ∀ c ∈ x.rest.head?, isLayout c = false := by
  cases l with
  | nil => cases h
  | cons c tail =>
    rw [lexeme?] at h
    by_cases hlayout : isLayout c = true
    · rw [if_pos hlayout] at h
      cases h
      intro d hd
      have hstop := List.head?_dropWhile_not isLayout tail
      rw [show (tail.dropWhile isLayout).head? = some d from hd] at hstop
      exact hstop
    · -- All other lexemes have a kind.
      rw [if_neg hlayout] at h
      repeat' split at h
      all_goals try (cases h; cases hk)
      obtain ⟨p, -, rfl⟩ := Option.map_eq_some_iff.1 h
      cases hk

/-- What is found at the front of a text is a lexeme. -/
theorem isLexeme_of_lexeme? {x : Lexeme} (h : lexeme? l = some x) : IsLexeme x.kind x.chars := by
  have run {p : Char → Bool} {c : Char} (hc : p c = true) (tail : List Char) :
      ∀ d ∈ c :: tail.takeWhile p, p d = true :=
    List.forall_mem_cons.2 ⟨hc, fun d => List.mem_takeWhile_imp⟩
  cases l with
  | nil => cases h
  | cons c tail =>
    rw [lexeme?] at h
    by_cases hlayout : isLayout c = true
    · rw [if_pos hlayout] at h
      cases h
      exact .blank (List.cons_ne_nil _ _) (run hlayout tail)
    rw [if_neg hlayout] at h
    by_cases hnumber : isNumberChar c = true
    · rw [if_pos hnumber] at h
      cases h
      exact .number (List.cons_ne_nil _ _) (run hnumber tail)
    rw [if_neg hnumber] at h
    by_cases hstart : isNameStart c = true
    · rw [if_pos hstart] at h
      cases h
      exact .identifier hstart fun d => List.mem_takeWhile_imp
    rw [if_neg hstart] at h
    by_cases hoperator : isOperatorChar c = true
    · rw [if_pos hoperator] at h
      cases h
      exact .operator hoperator
    rw [if_neg hoperator] at h
    split at h
    · rename_i hopen
      cases h
      rw [eq_of_beq hopen]
      exact .lparen
    split at h
    · rename_i hclose
      cases h
      rw [eq_of_beq hclose]
      exact .rparen
    · obtain ⟨⟨name, rest⟩, hp, rfl⟩ := Option.map_eq_some_iff.1 h
      exact isLexeme_placeholder hp

end Front

end FormulaBook
