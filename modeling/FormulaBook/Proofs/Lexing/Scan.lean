import FormulaBook.Proofs.Lexing.Lexemes
import Mathlib.Data.List.Chain

/-!
# Texts as rows of lexemes

The language of expressions, said without a scan: a text is a row of lexemes, in which no number or
name stands directly beside another. Such a text is cut into the tokens of its lexemes, and no other
text is cut into tokens.

* `Piece.tokens`, `tokensFrom`: the tokens of a row of lexemes, with their positions;
* `scan_spell`, `exists_spell_of_scan`: the scan finds the tokens of such a row;
* `touching?_tokensFrom`: words touch where they are neighbours;
* `tokenize_eq_ok`: the texts that are cut into tokens.
-/

namespace FormulaBook

open Text

/-! ### The tokens of a row -/

/-- The tokens of a lexeme: none if it is a run of blanks. -/
def Piece.tokens (position : Nat) (p : Piece) : List Token :=
  p.kind.toList.map fun kind =>
    { kind, text := String.ofList p.chars, position := some position }

/-- The tokens of a row of lexemes that begins at `position`. -/
def tokensFrom (position : Nat) : List Piece → List Token
  | [] => []
  | p :: pieces => p.tokens position ++ tokensFrom (position + size p.chars) pieces

theorem exists_mem_tokensFrom {pieces : List Piece} {p : Piece} (hp : p ∈ pieces) {kind : TokenKind}
    (hk : p.kind = some kind) (position : Nat) : ∃ t ∈ tokensFrom position pieces, t.kind = kind := by
  induction pieces generalizing position with
  | nil => cases hp
  | cons q pieces ih =>
    rcases List.mem_cons.1 hp with rfl | hp
    · exact ⟨_, List.mem_append_left _ (List.mem_map.2 ⟨kind, by simp [hk], rfl⟩), rfl⟩
    · obtain ⟨t, ht, htk⟩ := ih hp (position + size q.chars)
      exact ⟨t, List.mem_append_right _ ht, htk⟩

/-! ### Sizes -/

theorem size_nil : size [] = 0 := rfl

theorem size_pos {l : List Char} (h : l ≠ []) : 0 < size l := by
  refine List.length_pos_iff.2 fun hnil => h ?_
  have hback := charsFrom_codesFrom 0 l
  rw [codesOfChars] at hnil
  rw [hnil] at hback
  simpa [charsFrom] using hback.symm

theorem size_eq_length_of_isLayout {l : List Char} (h : ∀ c ∈ l, isLayout c = true) :
    size l = l.length := by
  induction l with
  | nil => rfl
  | cons c l ih =>
    rw [List.forall_mem_cons] at h
    have hmark : c ≠ halfMark ∧ isStandIn c.toNat = false := by
      have hc := h.1
      simp only [isLayout, Bool.or_eq_true, beq_iff_eq] at hc
      obtain (((rfl | rfl) | rfl) | rfl) | rfl := hc <;> decide
    have hcons : codesOfChars (c :: l) = c.toNat :: codesOfChars l :=
      codesFrom_other 0 hmark.1 hmark.2 l
    rw [size, hcons, List.length_cons, List.length_cons]
    exact congrArg (· + 1) (ih h.2)

/-! ### The scan -/

section Scan

variable {position : Nat} {l : List Char} {tokens : List Token}

theorem scan_of_lexeme? {x : Lexeme} (h : lexeme? l = some x) : scan position l =
    (scan (position + size x.chars) x.rest).map
      ((x.kind.toList.map fun kind =>
        { kind, text := String.ofList x.chars, position := some position }) ++ ·) := by
  obtain ⟨c, tail, rfl⟩ := List.exists_cons_of_ne_nil fun hnil : l = [] => by
    rw [hnil] at h
    cases h
  rw [scan]
  split
  · rename_i hnone
    cases h.symm.trans hnone
  · rename_i y hsome
    cases h.symm.trans hsome
    cases scan (position + size x.chars) x.rest with
    | error e => cases x.kind <;> rfl
    | ok tokens => cases x.kind <;> rfl

theorem scan_of_lexeme?_eq_none {c : Char} (h : lexeme? (c :: l) = none) :
    scan position (c :: l) = .error (.invalidCharacter (some position)) := by
  rw [scan]
  split
  · rfl
  · rename_i x hsome
    cases h.symm.trans hsome

/-- The blanks at the front of a text are skipped. -/
theorem scan_dropWhile (position : Nat) (l : List Char) : scan position l =
    scan (position + size (l.takeWhile isLayout)) (l.dropWhile isLayout) := by
  cases l with
  | nil => simp [size_nil]
  | cons c l =>
    by_cases hc : isLayout c = true
    · have hfront : lexeme? (c :: l) = some (.run none isLayout c l) := by
        rw [lexeme?, if_pos hc]
      rw [scan_of_lexeme? hfront, List.takeWhile_cons_of_pos hc, List.dropWhile_cons_of_pos hc]
      simp only [Lexeme.run, Option.toList_none, List.map_nil, List.nil_append]
      cases scan _ (l.dropWhile isLayout) <;> rfl
    · rw [List.takeWhile_cons_of_neg hc, List.dropWhile_cons_of_neg hc, size_nil, Nat.add_zero]

theorem scan_of_blank {blank : List Char} (h : ∀ c ∈ blank, isLayout c = true) :
    scan position (blank ++ l) = scan (position + size blank) l := by
  have hsize : size (blank ++ l.takeWhile isLayout) = size blank + size (l.takeWhile isLayout) := by
    have hrun : ∀ c ∈ l.takeWhile isLayout, isLayout c = true := fun c => List.mem_takeWhile_imp
    rw [size_eq_length_of_isLayout h, size_eq_length_of_isLayout hrun, ← List.length_append]
    refine size_eq_length_of_isLayout fun c hc => ?_
    exact (List.mem_append.1 hc).elim (h c) (hrun c)
  rw [scan_dropWhile position (blank ++ l), scan_dropWhile (position + size blank) l,
    List.takeWhile_append_of_pos h, List.dropWhile_append_of_pos h, hsize, Nat.add_assoc]

/-- The text of a row begins as its first lexeme does. -/
theorem head_spell {P : Char → Prop} {pieces : List Piece}
    (h : ∀ q ∈ pieces.head?, ∀ c ∈ q.chars.head?, P c) : ∀ c ∈ (spell pieces).head?, P c := by
  intro c hc
  cases pieces with
  | nil => cases hc
  | cons q pieces =>
    rw [spell_cons, List.head?_append_of_ne_nil _ q.chars_ne_nil] at hc
    exact h q rfl c hc

/-- What follows a word is no word, so it does not begin with a character of one. -/
theorem head_spell_of_isWord {p : Piece} {pieces : List Piece}
    (h : ∀ q ∈ pieces.head?, Apart p q) (hp : p.isWord = true) :
    ∀ c ∈ (spell pieces).head?, isNumberChar c = false ∧ isNameChar c = false :=
  head_spell fun q hq => Piece.head_of_not_isWord (h q hq hp)

/-- The scan of a row of lexemes finds its tokens. -/
theorem scan_spell {pieces : List Piece} (h : pieces.IsChain Apart) (position : Nat) :
    scan position (spell pieces) = .ok (tokensFrom position pieces) := by
  induction pieces generalizing position with
  | nil => rw [spell_nil, scan]; rfl
  | cons p pieces ih =>
    obtain ⟨hhead, hrest⟩ := List.isChain_cons.1 h
    rw [spell_cons, tokensFrom]
    cases hk : p.kind with
    | none =>
      rw [scan_of_blank (p.isLayout_of_kind_eq_none hk), ih hrest]
      simp [Piece.tokens, hk]
    | some kind =>
      have hfront := lexeme?_eq_some p (by simp [hk]) (head_spell_of_isWord hhead)
      rw [scan_of_lexeme? hfront, ih hrest]
      rfl

/-- A lexeme found at the front of a text can stand in front of the row of lexemes that the rest
of the text is. -/
theorem isChain_spaced_cons {x : Lexeme} (hx : lexeme? l = some x) {pieces : List Piece}
    (hspell : spell pieces = x.rest) (hspaced : pieces.IsChain Spaced) :
    ((⟨x.kind, x.chars, isLexeme_of_lexeme? hx⟩ : Piece) :: pieces).IsChain Spaced := by
  rw [List.isChain_cons]
  refine ⟨fun q hq hk hblank => ?_, hspaced⟩
  -- Two runs of blanks would be one: the first one ends where the text goes on with no blank.
  obtain ⟨pieces, rfl⟩ := List.head?_eq_some_iff.1 hq
  obtain ⟨c, chars, hc⟩ := List.exists_cons_of_ne_nil q.chars_ne_nil
  have hrest : c ∈ x.rest.head? := by
    rw [← hspell, spell_cons, hc]
    rfl
  have hend := head_rest_of_lexeme? hx hk c hrest
  rw [q.isLayout_of_kind_eq_none hblank c (hc ▸ List.mem_cons_self)] at hend
  cases hend

/-- The row of lexemes that the rest of a text is goes on to the front with the lexeme there. -/
theorem exists_spell_cons {x : Lexeme} (hx : lexeme? l = some x)
    (h : ∃ pieces, spell pieces = x.rest ∧ tokensFrom (position + size x.chars) pieces = tokens ∧
      pieces.IsChain Spaced) :
    ∃ pieces, spell pieces = l ∧ tokensFrom position pieces =
      (x.kind.toList.map fun kind =>
        { kind, text := String.ofList x.chars, position := some position }) ++ tokens ∧
      pieces.IsChain Spaced := by
  obtain ⟨pieces, hspell, htokens, hspaced⟩ := h
  refine ⟨⟨x.kind, x.chars, isLexeme_of_lexeme? hx⟩ :: pieces, ?_, ?_, ?_⟩
  · rw [spell_cons, hspell, lexeme?_append hx]
  · rw [tokensFrom, htokens]
    rfl
  · exact isChain_spaced_cons hx hspell hspaced

/-- What can be scanned is a row of lexemes, in which blanks are runs as long as they can be. -/
theorem exists_spell_of_scan (h : scan position l = .ok tokens) :
    ∃ pieces, spell pieces = l ∧ tokensFrom position pieces = tokens ∧ pieces.IsChain Spaced := by
  fun_induction scan position l generalizing tokens with
  | case1 position =>
    cases h
    exact ⟨[], rfl, rfl, .nil⟩
  | case2 => cases h
  | case3 => cases h
  | case4 position c tail x hx _ tokens' hk hrest ih =>
    cases h
    have hrow := exists_spell_cons hx (ih hrest)
    rwa [hk] at hrow
  | case5 position c tail x hx _ tokens' kind hk hrest ih =>
    cases h
    have hrow := exists_spell_cons hx (ih hrest)
    rwa [hk] at hrow

end Scan

/-! ### Words that touch -/

section Touching

variable {position : Nat} {pieces : List Piece}

/-- Every token of a row of lexemes is the token of one of them, at its place. -/
theorem exists_piece_of_mem_tokensFrom {t : Token} (h : t ∈ tokensFrom position pieces) :
    ∃ p ∈ pieces, ∃ (kind : TokenKind) (k : Nat), position ≤ k ∧ p.kind = some kind ∧
      t = { kind, text := String.ofList p.chars, position := some (k : Int) } := by
  induction pieces generalizing position with
  | nil => cases h
  | cons p pieces ih =>
    obtain hp | hrest := List.mem_append.1 h
    · obtain ⟨kind, hk, rfl⟩ := List.mem_map.1 hp
      exact ⟨p, List.mem_cons_self, kind, position, le_rfl, by simpa using hk, rfl⟩
    · obtain ⟨q, hq, kind, k, hlate, hk, rfl⟩ := ih hrest
      exact ⟨q, List.mem_cons_of_mem p hq, kind, k, by omega, hk, rfl⟩

theorem position_of_mem_tokensFrom {t : Token} (h : t ∈ tokensFrom position pieces) :
    ∃ k, position ≤ k ∧ t.position = some (k : Int) := by
  obtain ⟨p, -, kind, k, hk, -, rfl⟩ := exists_piece_of_mem_tokensFrom h
  exact ⟨k, hk, rfl⟩

theorem touching?_cons_eq_none {t : Token} {l : List Token} :
    touching? (t :: l) = none ↔ (∀ u ∈ l.head?, t.touches u = false) ∧ touching? l = none := by
  cases l with
  | nil => simp [touching?]
  | cons u l =>
    rw [touching?]
    cases h : t.touches u <;> simp [h]

/-- The token of a lexeme touches the token after it if the next lexeme is a word, and it is one. -/
theorem touches_head_tokensFrom {p : Piece} {kind : TokenKind} (hk : p.kind = some kind)
    (position : Nat) (pieces : List Piece) :
    (∀ u ∈ (tokensFrom (position + size p.chars) pieces).head?,
      Token.touches { kind, text := String.ofList p.chars, position := some (position : Int) } u =
        false) ↔ ∀ q ∈ pieces.head?, Apart p q := by
  have hp : p.isWord = kind.isWord := by simp [Piece.isWord, hk]
  cases pieces with
  | nil => simp [tokensFrom]
  | cons q pieces =>
    cases hq : q.kind with
    | none =>
      -- The next token comes after a blank, so it begins later than the first one ends.
      have hblank : q.isWord = false := by simp [Piece.isWord, hq]
      have hsize := size_pos q.chars_ne_nil
      refine iff_of_true (fun u hu => ?_) ?_
      · have hmem : u ∈ tokensFrom (position + size p.chars + size q.chars) pieces := by
          simpa [tokensFrom, Piece.tokens, hq] using List.mem_of_mem_head? hu
        obtain ⟨k, hlate, hposition⟩ := position_of_mem_tokensFrom hmem
        have hapart : ¬ ((position : Int) + size p.chars = k) := by omega
        simp [Token.touches, Token.stop?, hposition, hapart]
      · simp [Apart, hblank]
    | some kind' =>
      have hq' : q.isWord = kind'.isWord := by simp [Piece.isWord, hq]
      simp [tokensFrom, Piece.tokens, hq, Token.touches, Token.stop?, Apart, hp, hq']

theorem touching?_tokensFrom :
    touching? (tokensFrom position pieces) = none ↔ pieces.IsChain Apart := by
  induction pieces generalizing position with
  | nil => simp [tokensFrom, touching?]
  | cons p pieces ih =>
    rw [List.isChain_cons, tokensFrom]
    cases hk : p.kind with
    | none =>
      have hblank : p.isWord = false := by simp [Piece.isWord, hk]
      simp [Piece.tokens, hk, ih, Apart, hblank]
    | some kind =>
      have htokens : p.tokens position =
          [{ kind, text := String.ofList p.chars, position := some (position : Int) }] := by
        simp [Piece.tokens, hk]
      rw [htokens, List.singleton_append, touching?_cons_eq_none, ih,
        touches_head_tokensFrom hk position pieces]

end Touching

/-- The texts that are cut into tokens are the rows of lexemes without neighbouring words, and their
tokens are those of the lexemes. -/
theorem tokenize_eq_ok {text : String} {tokens : List Token} : tokenize text = .ok tokens ↔
    ∃ pieces : List Piece, spell pieces = text.toList ∧ pieces.IsChain Apart ∧
      tokensFrom 0 pieces = tokens := by
  constructor
  · intro h
    unfold tokenize at h
    split at h
    · cases h
    · rename_i row hrow
      split at h
      · cases h
      · rename_i htouching
        cases h
        obtain ⟨pieces, hspell, rfl, -⟩ := exists_spell_of_scan hrow
        exact ⟨pieces, hspell, touching?_tokensFrom.1 htouching, rfl⟩
  · rintro ⟨pieces, hspell, happart, rfl⟩
    rw [tokenize, ← hspell, scan_spell happart 0]
    simp only [touching?_tokensFrom.2 happart]

/-- The numbers of a text are literals. -/
theorem value_of_tokenize {text : String} {tokens : List Token} (h : tokenize text = .ok tokens) :
    ∀ t ∈ tokens, t.value = none := by
  obtain ⟨pieces, -, -, rfl⟩ := tokenize_eq_ok.1 h
  intro t ht
  obtain ⟨p, -, kind, k, -, -, rfl⟩ := exists_piece_of_mem_tokensFrom ht
  rfl

end FormulaBook
