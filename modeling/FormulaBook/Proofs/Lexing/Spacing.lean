import FormulaBook.Proofs.Lexing.Binding

/-!
# Blanks in a text without names

A text of numbers, operators and parentheses can be read in two ways. One removes the blanks and
then cuts the text into tokens; the other cuts the text and then joins the literals that follow on
each other. Both ways give the row in which each digit is read as a literal of its own and the
literals are joined, so blanks have no meaning, wherever they stand.

* `IsNumeric`: the texts without names;
* `NumericRow`, `exists_numericRow`: the lexemes that such a text is cut into;
* `symbol?`: the token of one character;
* `mergeAfter_digits`, `mergeLiterals_spell`: the digits of a number, joined again;
* `told_evaluate`, `told_execute`, `lookup_resolve`: what a text without names comes to by itself,
  as a formula and as a variable;
* `evaluate_spacing`: all of them agree.
-/

namespace FormulaBook

open Text

/-- A text without names: the characters of numbers, operators, parentheses, and the blanks that may
stand between tokens. -/
def IsNumeric (l : List Char) : Prop := ∀ c ∈ l, isArithmeticChar c = true ∨ isLayout c = true

instance (l : List Char) : Decidable (IsNumeric l) :=
  decidable_of_iff (l.all fun c => isArithmeticChar c || isLayout c) (by simp [IsNumeric])

theorem isArithmeticChar_iff {c : Char} : isArithmeticChar c = true ↔
    isNumberChar c = true ∨ isOperatorChar c = true ∨ c = '(' ∨ c = ')' := by
  simp [isArithmeticChar, or_assoc]

theorem not_isBlank_of_isArithmeticChar {c : Char} (h : isArithmeticChar c = true) :
    isBlank c = false := by
  rcases isArithmeticChar_iff.1 h with hnumber | hoperator | rfl | rfl
  · exact not_isBlank_of_isNumberChar hnumber
  · exact not_isBlank_of_isOperatorChar hoperator
  · rfl
  · rfl

/-! ### Texts without names can be cut -/

/-- A lexeme that is no name and no placeholder. -/
def Piece.IsPlain (p : Piece) : Prop := p.kind ≠ some .identifier ∧ p.kind ≠ some .placeholder

/-- The lexemes of a text without names, in which no number stands directly beside another. -/
structure NumericRow (l : List Char) (row : List Piece) : Prop where
  spell_eq : spell row = l
  apart : row.IsChain Apart
  plain : ∀ p ∈ row, p.IsPlain

namespace NumericRow

variable {l : List Char} {row : List Piece} {c : Char}

/-- A lexeme that is no word may stand in front of every row. -/
theorem cons (h : NumericRow l row) {p : Piece} (hword : p.isWord = false) (hp : p.IsPlain) :
    NumericRow (p.chars ++ l) (p :: row) where
  spell_eq := by rw [spell_cons, h.spell_eq]
  apart := List.isChain_cons.2 ⟨fun q _ hfront => by simp [hword] at hfront, h.apart⟩
  plain := List.forall_mem_cons.2 ⟨hp, h.plain⟩

/-- The only words of a row are its numbers. -/
theorem isWord_eq_false {q : Piece} (hq : q.IsPlain) (hk : q.kind ≠ some .number) :
    q.isWord = false := by
  cases hkind : q.kind with
  | none => simp [Piece.isWord, hkind]
  | some kind =>
    rw [Piece.IsPlain, hkind] at hq
    rw [hkind] at hk
    rw [Piece.isWord, hkind]
    cases kind with
    | number => exact absurd rfl hk
    | identifier => exact absurd rfl hq.1
    | operator | lparen | rparen | placeholder => rfl

/-- A digit makes the number at the front of a row longer, or else it is a number of its own. -/
theorem digit (h : NumericRow l row) (hc : isNumberChar c = true) :
    ∃ row', NumericRow (c :: l) row' := by
  have hsingle : ∀ d ∈ [c], isNumberChar d = true := List.forall_mem_singleton.2 hc
  have hne : [c] ≠ [] := List.cons_ne_nil _ _
  obtain ⟨rfl, happart, hplain⟩ := h
  cases row with
  | nil =>
    exact ⟨[⟨some .number, [c], .number hne hsingle⟩], rfl, List.isChain_singleton _,
      List.forall_mem_singleton.2 ⟨nofun, nofun⟩⟩
  | cons q row =>
    obtain ⟨hq, hrow⟩ := List.forall_mem_cons.1 hplain
    obtain ⟨hchain, hrest⟩ := List.isChain_cons.1 happart
    by_cases hk : q.kind = some .number
    · obtain ⟨kind, chars, hlexeme⟩ := q
      cases hk
      cases hlexeme with
      | number _ hall =>
        have hlong : ∀ d ∈ c :: chars, isNumberChar d = true := List.forall_mem_cons.2 ⟨hc, hall⟩
        exact ⟨⟨some .number, c :: chars, .number (List.cons_ne_nil _ _) hlong⟩ :: row, rfl,
          List.isChain_cons.2 ⟨hchain, hrest⟩, List.forall_mem_cons.2 ⟨⟨nofun, nofun⟩, hrow⟩⟩
    · exact ⟨⟨some .number, [c], .number hne hsingle⟩ :: q :: row, rfl,
        List.isChain_cons_cons.2 ⟨fun _ => isWord_eq_false hq hk, happart⟩,
        List.forall_mem_cons.2 ⟨⟨nofun, nofun⟩, hplain⟩⟩

end NumericRow

/-- A text without names is a row of lexemes without names, in which numbers are as long as they can
be. -/
theorem exists_numericRow {l : List Char} (h : IsNumeric l) : ∃ row, NumericRow l row := by
  induction l with
  | nil => exact ⟨[], rfl, .nil, by simp⟩
  | cons c l ih =>
    rw [IsNumeric, List.forall_mem_cons] at h
    obtain ⟨row, hrow⟩ := ih h.2
    rcases h.1 with harith | hlayout
    · rcases isArithmeticChar_iff.1 harith with hnumber | hoperator | rfl | rfl
      · exact hrow.digit hnumber
      · exact ⟨_, hrow.cons (p := ⟨some .operator, [c], .operator hoperator⟩) rfl ⟨nofun, nofun⟩⟩
      · exact ⟨_, hrow.cons (p := ⟨some .lparen, ['('], .lparen⟩) rfl ⟨nofun, nofun⟩⟩
      · exact ⟨_, hrow.cons (p := ⟨some .rparen, [')'], .rparen⟩) rfl ⟨nofun, nofun⟩⟩
    · have hblank : IsLexeme none [c] :=
        .blank (List.cons_ne_nil _ _) (List.forall_mem_singleton.2 hlayout)
      exact ⟨_, hrow.cons (p := ⟨none, [c], hblank⟩) rfl ⟨nofun, nofun⟩⟩

/-! ### Digits that are joined again -/

/-- The literal with some digits, at no position. -/
def literal (l : List Char) : Token := { kind := .number, text := String.ofList l }

/-- The token of one character that is no blank, at no position. A digit or a point is a literal of
its own. -/
def symbol? (c : Char) : Option Token :=
  if isNumberChar c then some (literal [c])
  else if isOperatorChar c then some { kind := .operator, text := String.ofList [c] }
  else if c == '(' then some { kind := .lparen, text := String.ofList [c] }
  else if c == ')' then some { kind := .rparen, text := String.ofList [c] }
  else none

section Symbols

variable {c : Char} {l : List Char} {a t : Token} {rest : List Token}

theorem symbol?_of_isNumberChar (h : isNumberChar c = true) : symbol? c = some (literal [c]) :=
  if_pos h

theorem symbol?_of_isLayout (h : isLayout c = true) : symbol? c = none := by
  simp only [isLayout, Bool.or_eq_true, beq_iff_eq] at h
  obtain (((rfl | rfl) | rfl) | rfl) | rfl := h <;> rfl

theorem symbol?_of_isOperatorChar (h : isOperatorChar c = true) :
    symbol? c = some { kind := .operator, text := String.ofList [c] } := by
  rw [symbol?, (not_of_isOperatorChar h).2.1, h]
  rfl

theorem join_literal (a : Token) (l l' : List Char) :
    (a.join (literal l)).join (literal l') = a.join (literal (l ++ l')) := by
  rw [Token.join, Token.join, Token.join, literal, literal, literal, String.ofList_append,
    String.append_assoc]

theorem mergeAfter_literal (ha : a.isLiteral = true) (l : List Char) (rest : List Token) :
    a.mergeAfter (literal l :: rest) = (a.join (literal l)).mergeAfter rest := by
  rw [Token.mergeAfter, ha]
  rfl

theorem mergeAfter_cons (h : (a.isLiteral && t.isLiteral) = false) (rest : List Token) :
    a.mergeAfter (t :: rest) = a :: t.mergeAfter rest := by
  rw [Token.mergeAfter, h]
  rfl

/-- The digits of a number, each a literal, are joined to the literal of the whole number. -/
theorem mergeAfter_digits (ha : a.isLiteral = true) (hl : ∀ c ∈ l, isNumberChar c = true)
    (rest : List Token) :
    a.mergeAfter (l.filterMap symbol? ++ rest) = (a.join (literal l)).mergeAfter rest := by
  induction l generalizing a with
  | nil => simp [Token.join, literal]
  | cons c l ih =>
    rw [List.forall_mem_cons] at hl
    have hjoined : (a.join (literal [c])).isLiteral = true := ha
    rw [List.filterMap_cons, symbol?_of_isNumberChar hl.1, List.cons_append, mergeAfter_literal ha,
      ih hjoined hl.2, join_literal, List.singleton_append]

/-- After every token, a number is joined with what follows as its digits are. -/
theorem mergeAfter_number (hne : l ≠ []) (hl : ∀ c ∈ l, isNumberChar c = true) (a : Token)
    (rest : List Token) :
    a.mergeAfter (l.filterMap symbol? ++ rest) = a.mergeAfter (literal l :: rest) := by
  cases ha : a.isLiteral with
  | true => rw [mergeAfter_digits ha hl, mergeAfter_literal ha]
  | false =>
    -- The first digit is not joined to `a`, and the others are joined to it.
    obtain ⟨c, l, rfl⟩ := List.exists_cons_of_ne_nil hne
    rw [List.forall_mem_cons] at hl
    have hword : literal (c :: l) = (literal [c]).join (literal l) := by
      rw [Token.join, literal, literal, literal, ← String.ofList_append, List.singleton_append]
    have hnot (l' : List Char) : (a.isLiteral && (literal l').isLiteral) = false := by
      rw [ha, Bool.false_and]
    rw [List.filterMap_cons, symbol?_of_isNumberChar hl.1, List.cons_append,
      mergeAfter_cons (hnot [c]), mergeAfter_cons (hnot (c :: l)), mergeAfter_digits rfl hl.2,
      hword]

theorem mergeAfter_congr {rest rest' : List Token}
    (h : ∀ a : Token, a.mergeAfter rest = a.mergeAfter rest') (a t : Token) :
    a.mergeAfter (t :: rest) = a.mergeAfter (t :: rest') := by
  rw [Token.mergeAfter, Token.mergeAfter]
  split
  · exact h (a.join t)
  · rw [h t]

/-- After every token, a row without names is joined as the characters of its text are. -/
theorem mergeAfter_spell {row : List Piece} (h : ∀ p ∈ row, p.IsPlain) (a : Token) :
    a.mergeAfter (row.filterMap Piece.token?) = a.mergeAfter ((spell row).filterMap symbol?) := by
  induction row generalizing a with
  | nil => rfl
  | cons p row ih =>
    rw [List.forall_mem_cons] at h
    have hrest := ih h.2
    rw [spell_cons, List.filterMap_append]
    obtain ⟨kind, chars, hp⟩ := p
    cases hp with
    | blank _ hl =>
      have hnone : chars.filterMap symbol? = [] :=
        List.filterMap_eq_nil_iff.2 fun c hc => symbol?_of_isLayout (hl c hc)
      rw [hnone]
      exact hrest a
    | number hne hl =>
      rw [mergeAfter_number hne hl]
      exact mergeAfter_congr hrest a (literal chars)
    | @operator c hoperator =>
      have hone : [c].filterMap symbol? = [{ kind := .operator, text := String.ofList [c] }] := by
        rw [List.filterMap_cons, symbol?_of_isOperatorChar hoperator, List.filterMap_nil]
      rw [hone]
      exact mergeAfter_congr hrest a _
    | lparen | rparen => exact mergeAfter_congr hrest a _
    | identifier => exact absurd rfl h.1.1
    | placeholder => exact absurd rfl h.1.2

/-- A row without names is joined as the characters of its text are. -/
theorem mergeLiterals_spell {row : List Piece} (h : ∀ p ∈ row, p.IsPlain) :
    mergeLiterals (row.filterMap Piece.token?) = mergeLiterals ((spell row).filterMap symbol?) := by
  -- A parenthesis in front is not joined to anything.
  have hfront := mergeAfter_spell h { kind := .lparen, text := "(" }
  rw [mergeAfter_of_not_isLiteral rfl, mergeAfter_of_not_isLiteral rfl] at hfront
  exact (List.cons.inj hfront).2

end Symbols

/-! ### What a text without names comes to -/

section Outcomes

/-- What a row of characters comes to, each of which is read as a token of its own: a value, or the
kind and the message of an error. -/
def symbolsOutcome (l : List Char) : Except (ErrorKind × String) Float :=
  (evaluateTokens (l.filterMap symbol?)).mapError EvalError.told

variable {l : List Char} {row : List Piece}

theorem told_evaluateTokens (tokens : List Token) :
    (evaluateTokens tokens).mapError EvalError.told =
      (evaluateTokens (tokens.map Token.unplaced)).mapError EvalError.told := by
  rw [(evaluateTokens_unplaced tokens).mapError_eq]
  simp only [EvalError.told_unplaced]

/-- The tokens of a text without names come to what its characters come to. -/
theorem NumericRow.told_evaluateTokens (h : NumericRow l row) (position : Nat) :
    (evaluateTokens (tokensFrom position row)).mapError EvalError.told = symbolsOutcome l := by
  rw [FormulaBook.told_evaluateTokens, map_unplaced_tokensFrom, symbolsOutcome, evaluateTokens,
    evaluateTokens, mergeLiterals_spell h.plain, h.spell_eq]

theorem NumericRow.kind_ne (h : NumericRow l row) {position : Nat} :
    ∀ t ∈ tokensFrom position row, t.kind ≠ .identifier ∧ t.kind ≠ .placeholder := by
  intro t ht
  obtain ⟨p, hp, kind, k, -, hk, rfl⟩ := exists_piece_of_mem_tokensFrom ht
  have hplain := h.plain p hp
  rw [Piece.IsPlain, hk] at hplain
  exact ⟨fun heq => hplain.1 (congrArg some heq), fun heq => hplain.2 (congrArg some heq)⟩

theorem NumericRow.tokenize {text : String} (h : NumericRow text.toList row) :
    tokenize text = .ok (tokensFrom 0 row) :=
  tokenize_eq_ok.2 ⟨row, h.spell_eq, h.apart, rfl⟩

/-- Blanks are no tokens, so the characters that are left come to the same without them. -/
theorem symbolsOutcome_filter (h : IsNumeric l) :
    symbolsOutcome (l.filter (!isBlank ·)) = symbolsOutcome l := by
  rw [symbolsOutcome, symbolsOutcome, List.filterMap_filter]
  refine congrArg _ (congrArg _ (List.filterMap_congr fun c hc => ?_))
  rcases h c hc with harith | hlayout
  · simp [not_isBlank_of_isArithmeticChar harith]
  · rw [symbol?_of_isLayout hlayout, ite_self]

variable {text : String}

theorem told_tokenize_bind (h : IsNumeric text.toList) :
    ((tokenize text).bind evaluateTokens).mapError EvalError.told = symbolsOutcome text.toList := by
  obtain ⟨row, hrow⟩ := exists_numericRow h
  rw [hrow.tokenize]
  exact hrow.told_evaluateTokens 0

theorem told_evaluate (h : IsNumeric text.toList) :
    (evaluate text).mapError EvalError.told = symbolsOutcome text.toList := by
  have harith : ∀ c ∈ text.toList.filter (!isBlank ·), isArithmeticChar c = true := by
    intro c hc
    obtain ⟨hmem, hblank⟩ := List.mem_filter.1 hc
    refine (h c hmem).resolve_right fun hlayout => ?_
    rw [isBlank_of_isLayout hlayout] at hblank
    cases hblank
  have hkept : IsNumeric (String.ofList (text.toList.filter (!isBlank ·))).toList := by
    rw [String.toList_ofList]
    exact fun c hc => .inl (harith c hc)
  rw [evaluate_of_forall harith, told_tokenize_bind hkept, String.toList_ofList,
    symbolsOutcome_filter h]

theorem told_execute (h : IsNumeric text.toList) (context : Context)
    (values : List (String × Float)) (errors : List (String × String)) :
    (execute text context values errors).mapError EvalError.told = symbolsOutcome text.toList := by
  obtain ⟨row, hrow⟩ := exists_numericRow h
  have hplain : ∀ t ∈ tokensFrom 0 row, t.kind ≠ .identifier ∧ t.kind ≠ .placeholder :=
    hrow.kind_ne
  rw [execute_of_tokenize hrow.tokenize, bindContext_of_plain context fun t ht => (hplain t ht).2]
  show ((bindVariables values errors (tokensFrom 0 row)).bind evaluateTokens).mapError _ = _
  rw [bindVariables_of_plain values errors fun t ht => (hplain t ht).1]
  exact hrow.told_evaluateTokens 0

/-- A variable whose expression has no names refers to nothing. -/
theorem told_plainSearch (h : IsNumeric text.toList) (name : String) :
    (plainSearch [⟨name, .known .dynamic, text⟩] [] name).mapError EvalError.told =
      symbolsOutcome text.toList := by
  obtain ⟨row, hrow⟩ := exists_numericRow h
  have hkept (find : String → Except EvalError Float) :
      (tokensFrom 0 row).mapM (replaceName [⟨name, .known .dynamic, text⟩] name find) =
        .ok (tokensFrom 0 row) := by
    refine mapM_eq_self fun t ht => ?_
    obtain ⟨hname, hplaceholder⟩ := hrow.kind_ne t ht
    unfold replaceName
    cases hk : t.kind with
    | identifier => exact absurd hk hname
    | placeholder => exact absurd hk hplaceholder
    | number | operator | lparen | rparen => rfl
  have hsearch := plainSearch_asVariable [] ⟨name, text⟩
  rw [hrow.tokenize] at hsearch
  refine (congrArg (Except.mapError EvalError.told) hsearch).trans ?_
  show (((tokensFrom 0 row).mapM (replaceName [⟨name, .known .dynamic, text⟩] name _)).bind
    evaluateTokens).mapError _ = _
  rw [hkept]
  exact hrow.told_evaluateTokens 0

/-- The one entry of a list of one variable is that of its search. -/
theorem entries_resolve_singleton (v : Variable) :
    (resolve [v]).entries = [v.name].map fun name => (name, plainSearch [v] [] name) := by
  have hsize : offPath [v] [] ≤ chainLimit := by
    simp [offPath, chainLimit]
  exact entries_eq_of_offPath_le hsize

/-- What is recorded for a variable whose expression has no names. -/
theorem lookup_resolve (h : IsNumeric text.toList) (name : String) :
    let r := resolve [⟨name, .known .dynamic, text⟩]
    (∀ x, r.values.lookup name = some x ↔ symbolsOutcome text.toList = .ok x) ∧
      ∀ m, r.errors.lookup name = some m ↔
        ∃ kind, symbolsOutcome text.toList = .error (kind, m) := by
  intro r
  have hentries := entries_resolve_singleton ⟨name, .known .dynamic, text⟩
  have hname : name ∈ [name] := List.mem_singleton_self name
  rw [lookup_values hentries, lookup_errors hentries, if_pos hname, if_pos hname,
    ← told_plainSearch h name]
  cases plainSearch [⟨name, .known .dynamic, text⟩] [] name <;>
    simp [Except.toOption, Except.mapError, message?, EvalError.told]

/-- **Blanks have no meaning in a text without names.** Its value, or the kind and the message of
its error, is the same whether its blanks are removed before it is cut into tokens or its literals
are joined afterwards, whether it is executed as a formula, in whatever context, or resolved as the
expression of a variable. -/
theorem evaluate_spacing (h : IsNumeric text.toList) :
    ∃ outcome : Except (ErrorKind × String) Float,
      (evaluate text).mapError EvalError.told = outcome ∧
      ((tokenize text).bind evaluateTokens).mapError EvalError.told = outcome ∧
      (∀ context values errors,
        (execute text context values errors).mapError EvalError.told = outcome) ∧
      ∀ name, let r := resolve [⟨name, .known .dynamic, text⟩]
        (∀ x, r.values.lookup name = some x ↔ outcome = .ok x) ∧
          ∀ m, r.errors.lookup name = some m ↔ ∃ kind, outcome = .error (kind, m) :=
  ⟨symbolsOutcome text.toList, told_evaluate h, told_tokenize_bind h, told_execute h,
    lookup_resolve h⟩

/-- Blanks within numbers, around a point that stands alone, and at both ends: the expression is the
quotient of `1.5 * (23 - .5)` and zero. -/
theorem evaluate_spacing_scattered :
    let text := " 1 .\t5*( 2\n3 -\r. 5)/ \x0c0 "
    let told := (ErrorKind.divisionByZero, "Division by zero.")
    IsNumeric text.toList ∧
    (evaluate text).mapError EvalError.told = .error told ∧
    ((tokenize text).bind evaluateTokens).mapError EvalError.told = .error told ∧
    (execute text [] [] []).mapError EvalError.told = .error told ∧
    (resolve [⟨"A", .known .dynamic, text⟩]).errors.lookup "A" = some told.2 := by
  intro text told
  have hnumeric : IsNumeric text.toList := by decide +kernel
  have htold : (evaluate text).mapError EvalError.told = .error told := by decide +kernel
  obtain ⟨outcome, hevaluate, htokens, hexecute, hresolve⟩ := evaluate_spacing hnumeric
  rw [htold] at hevaluate
  subst hevaluate
  exact ⟨hnumeric, htold, htokens, hexecute [] [] [], ((hresolve "A").2 told.2).2 ⟨told.1, rfl⟩⟩

end Outcomes

end FormulaBook
