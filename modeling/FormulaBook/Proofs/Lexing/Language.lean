import FormulaBook.Proofs.Lexing.Scan

/-!
# The language of expressions

Which texts are cut into tokens, and into which. A text of the language can be cut in one way only
if blanks are kept together: the lexeme at its front is told by the text alone, and so is then what
follows it. A token stands where its lexeme begins.

* `Cuts`: the ways to cut a text into lexemes, with blanks kept together;
* `lexeme?_spell`, `Cuts.unique`: such a row begins with the lexeme that is found at the front, so
  there is one at most;
* `size_spell_cons`, `tokensFrom_append`: the tokens of a part of a row begin where the text
  before it ends;
* `tokenize_eq_error`: why a text is not cut;
* `tokenize_iff_cuts`: the language and its tokens.
-/

namespace FormulaBook

open Text

/-- A way to cut a text into lexemes: no two neighbours are both words, and none are both blanks. -/
structure Cuts (text : String) (row : List Piece) : Prop where
  spell_eq : spell row = text.toList
  apart : row.IsChain Apart
  spaced : row.IsChain Spaced

/-! ### One way to cut a text -/

section Unique

variable {p q : Piece} {row row' : List Piece}

theorem Piece.ext_of_eq (hkind : p.kind = q.kind) (hchars : p.chars = q.chars) : p = q := by
  cases p
  cases q
  cases hkind
  cases hchars
  rfl

/-- Where blanks are kept together, what follows a run of them begins with none. -/
theorem head_spell_of_blank (h : ∀ q ∈ row.head?, Spaced p q) (hp : p.kind = none) :
    ∀ c ∈ (spell row).head?, isLayout c = false :=
  head_spell fun q hq => Piece.head_of_kind_ne_none (h q hq hp)

/-- The lexeme found at the front of the text of a row is the first one of the row. -/
theorem lexeme?_spell (happart : (p :: row).IsChain Apart) (hspaced : (p :: row).IsChain Spaced) :
    lexeme? (spell (p :: row)) = some ⟨p.kind, p.chars, spell row⟩ := by
  rw [List.isChain_cons] at happart hspaced
  rw [spell_cons]
  by_cases hk : p.kind = none
  · have hend := head_spell_of_blank hspaced.1 hk
    obtain ⟨c, chars, hc⟩ := List.exists_cons_of_ne_nil p.chars_ne_nil
    have hblank := p.isLayout_of_kind_eq_none hk
    rw [hc, List.forall_mem_cons] at hblank
    rw [hc, List.cons_append, lexeme?, if_pos hblank.1, Lexeme.run_append hblank.2 hend, hk]
  · exact lexeme?_eq_some p hk (head_spell_of_isWord happart.1)

/-- A text can be cut in one way at most. -/
theorem eq_of_spell_eq (happart : row.IsChain Apart) (hspaced : row.IsChain Spaced)
    (happart' : row'.IsChain Apart) (hspaced' : row'.IsChain Spaced)
    (h : spell row = spell row') : row = row' := by
  induction row generalizing row' with
  | nil =>
    cases row' with
    | nil => rfl
    | cons q row' => exact absurd (List.append_eq_nil_iff.1 h.symm).1 q.chars_ne_nil
  | cons p row ih =>
    cases row' with
    | nil => exact absurd (List.append_eq_nil_iff.1 h).1 p.chars_ne_nil
    | cons q row' =>
      -- Both rows begin with the lexeme at the front of the text, and then spell the same rest.
      have hp := lexeme?_spell happart hspaced
      rw [h, lexeme?_spell happart' hspaced', Option.some.injEq, Lexeme.mk.injEq] at hp
      obtain ⟨hkind, hchars, hrest⟩ := hp
      have htail := ih happart.tail hspaced.tail happart'.tail hspaced'.tail hrest.symm
      rw [Piece.ext_of_eq hkind hchars, htail, List.tail_cons]

theorem Cuts.unique {text : String} (h : Cuts text row) (h' : Cuts text row') : row = row' :=
  eq_of_spell_eq h.apart h.spaced h'.apart h'.spaced (h.spell_eq.trans h'.spell_eq.symm)

end Unique

/-! ### Where a lexeme begins -/

section Places

/-- Code points are counted part by part, where no mark ends the first part. -/
theorem codesFrom_append {cs : List Char} (h : ∀ c ∈ cs.getLast?, c ≠ halfMark) (hne : cs ≠ [])
    (marks : Nat) (l : List Char) :
    codesFrom marks [] (cs ++ l) = codesFrom marks [] cs ++ codesFrom 0 [] l := by
  induction cs generalizing marks with
  | nil => exact absurd rfl hne
  | cons c cs ih =>
    by_cases hcs : cs = []
    · subst hcs
      have hc : (c == halfMark) = false := by simpa using h c rfl
      rw [List.singleton_append, codesFrom, codesFrom, hc]
      simp only [Bool.false_eq_true, if_false]
      split
      · rw [codesFrom_eq_append, codesFrom_eq_append 0 _ []]
        simp [codesFrom]
      · rw [codesFrom_eq_append, codesFrom_eq_append 0 _ []]
        simp [codesFrom]
    · have hlast : ∀ d ∈ cs.getLast?, d ≠ halfMark := fun d hd =>
        h d (by rwa [List.getLast?_cons_of_ne_nil hcs])
      rw [List.cons_append, codesFrom, codesFrom]
      split
      · exact ih hlast hcs _
      split
      · rw [codesFrom_eq_append, codesFrom_eq_append 0 _ cs, ih hlast hcs, List.append_assoc]
      · rw [codesFrom_eq_append, codesFrom_eq_append 0 _ cs, ih hlast hcs, List.append_assoc]

/-- No lexeme ends with a mark. -/
theorem Piece.getLast_ne_halfMark (p : Piece) : ∀ c ∈ p.chars.getLast?, c ≠ halfMark := by
  obtain ⟨kind, chars, hp⟩ := p
  intro c hc heq
  have hmem : halfMark ∈ chars := heq ▸ List.mem_of_getLast? hc
  cases hp with
  | blank _ hl => exact absurd (hl _ hmem) (by decide)
  | number _ hl => exact absurd (hl _ hmem) (by decide)
  | @identifier d l hstart hl =>
    have hall : ∀ x ∈ d :: l, isNameChar x = true :=
      List.forall_mem_cons.2 ⟨isNameChar_of_isNameStart hstart, hl⟩
    exact absurd (hall _ hmem) (by decide)
  | operator hop =>
    rw [← List.mem_singleton.1 hmem] at hop
    exact absurd hop (by decide)
  | lparen | rparen => exact absurd hmem (by decide)
  | @placeholder name =>
    have hbrace : (placeholderChars name).getLast? = some '}' := by
      rw [placeholderChars, List.getLast?_append]
      rfl
    rw [hbrace, heq] at hc
    exact absurd hc (by decide)

theorem size_spell_cons (p : Piece) (row : List Piece) :
    size (spell (p :: row)) = size p.chars + size (spell row) := by
  have h := codesFrom_append p.getLast_ne_halfMark p.chars_ne_nil 0 (spell row)
  rw [spell_cons, size, size, size, codesOfChars, h, List.length_append]
  rfl

/-- The tokens of the second part of a row begin where the text of the first part ends. -/
theorem tokensFrom_append (position : Nat) (row row' : List Piece) :
    tokensFrom position (row ++ row') =
      tokensFrom position row ++ tokensFrom (position + size (spell row)) row' := by
  induction row generalizing position with
  | nil => rfl
  | cons p row ih =>
    rw [List.cons_append, tokensFrom, tokensFrom, ih, size_spell_cons, List.append_assoc,
      Nat.add_assoc]

end Places

/-! ### Texts of the language -/

section Language

variable {text : String}

/-- A text in which some lexemes stand, no two words beside each other, can be cut. -/
theorem exists_cuts {row : List Piece} (hspell : spell row = text.toList)
    (happart : row.IsChain Apart) : ∃ row', Cuts text row' := by
  obtain ⟨row', hspell', htokens, hspaced⟩ := exists_spell_of_scan (scan_spell happart 0)
  have happart' : row'.IsChain Apart :=
    touching?_tokensFrom.1 (htokens ▸ touching?_tokensFrom.2 happart)
  exact ⟨row', hspell'.trans hspell, happart', hspaced⟩

theorem Cuts.tokenize {row : List Piece} (h : Cuts text row) :
    tokenize text = .ok (tokensFrom 0 row) :=
  tokenize_eq_ok.2 ⟨row, h.spell_eq, h.apart, rfl⟩

theorem scan_eq_error {position : Nat} {l : List Char} {e : EvalError}
    (h : scan position l = .error e) : ∃ place : Nat, e = .invalidCharacter (some place) := by
  fun_induction scan position l with
  | case1 => cases h
  | case2 position =>
    cases h
    exact ⟨position, rfl⟩
  | case3 position c tail x hx _ e' hrest ih =>
    cases h
    exact ih hrest
  | case4 => cases h
  | case5 => cases h

theorem mem_of_touching? {t : Token} {l : List Token} (h : touching? l = some t) : t ∈ l := by
  induction l with
  | nil => cases h
  | cons a l ih =>
    cases l with
    | nil => cases h
    | cons b l =>
      rw [touching?] at h
      split at h
      · cases h
        exact List.mem_cons_of_mem a List.mem_cons_self
      · exact List.mem_cons_of_mem a (ih h)

/-- A text that is not cut has a character that begins no lexeme, or words that touch. -/
theorem tokenize_eq_error {e : EvalError} (h : tokenize text = .error e) :
    ∃ place : Nat, e = .invalidCharacter (some place) := by
  unfold tokenize at h
  split at h
  · rename_i e' hscan
    cases h
    exact scan_eq_error hscan
  · rename_i tokens hscan
    split at h
    · rename_i t htouching
      cases h
      obtain ⟨row, -, rfl, -⟩ := exists_spell_of_scan hscan
      obtain ⟨place, -, hposition⟩ := position_of_mem_tokensFrom (mem_of_touching? htouching)
      exact ⟨place, by rw [hposition]⟩
    · cases h

/-- **The language of expressions.** A text is cut into tokens if and only if it is a row of lexemes
in which no two words are neighbours. There is then one way to cut it with blanks kept together, and
the tokens are the lexemes of that row that are no blanks, in order, each at the place where the
text before it ends. Every other text has an invalid character. -/
theorem tokenize_iff_cuts (text : String) :
    ((∃ tokens, tokenize text = .ok tokens) ↔
      ∃ row, spell row = text.toList ∧ row.IsChain Apart) ∧
    (∀ tokens, tokenize text = .ok tokens ↔
      ∃ row, (∀ row', Cuts text row' ↔ row' = row) ∧ tokensFrom 0 row = tokens ∧
        ∀ before after, row = before ++ after →
          tokens = tokensFrom 0 before ++ tokensFrom (size (spell before)) after) ∧
    ((∃ tokens, tokenize text = .ok tokens) ∨
      ∃ place : Nat, tokenize text = .error (.invalidCharacter (some place))) := by
  refine ⟨⟨?_, ?_⟩, fun tokens => ⟨?_, ?_⟩, ?_⟩
  · rintro ⟨tokens, h⟩
    obtain ⟨row, hspell, happart, -⟩ := tokenize_eq_ok.1 h
    exact ⟨row, hspell, happart⟩
  · rintro ⟨row, hspell, happart⟩
    exact ⟨_, tokenize_eq_ok.2 ⟨row, hspell, happart, rfl⟩⟩
  · intro h
    obtain ⟨row, hspell, happart, -⟩ := tokenize_eq_ok.1 h
    obtain ⟨row, hcuts⟩ := exists_cuts hspell happart
    have htokens : tokensFrom 0 row = tokens := Except.ok.inj (hcuts.tokenize.symm.trans h)
    refine ⟨row, fun row' => ⟨fun h' => h'.unique hcuts, fun heq => heq ▸ hcuts⟩, htokens, ?_⟩
    rintro before after rfl
    rw [← htokens, tokensFrom_append, Nat.zero_add]
  · rintro ⟨row, hcuts, rfl, -⟩
    exact ((hcuts row).2 rfl).tokenize
  · cases h : tokenize text with
    | ok tokens => exact Or.inl ⟨tokens, rfl⟩
    | error e =>
      obtain ⟨place, rfl⟩ := tokenize_eq_error h
      exact Or.inr ⟨place, rfl⟩

end Language

end FormulaBook
