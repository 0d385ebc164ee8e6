import FormulaBook.Proofs.Arithmetic.Positions
import FormulaBook.Proofs.Lexing.Scan
import FormulaBook.Proofs.Resolution.Execution

/-!
# Placeholders in a text

To bind the placeholders of an expression is to write what they are bound to into its text, between
blanks. A binding is digits and points, so it becomes one number and nothing else, and the blanks
keep it apart from the words beside it.

* `bindText`: a text with bindings in the place of its placeholders;
* `Binds`: the same for rows of lexemes, with `Binds.bindChars`, `Binds.isChain` and
  `Binds.filterMap_token?` for the text, the neighbours and the tokens of such a row;
* `bindContext_eq_ok`: the tokens of an expression whose placeholders are bound;
* `execute_congr`: the values and errors that a formula asks for;
* `execute_bindText`: a formula comes to what its text with the bindings comes to.
-/

namespace FormulaBook

open Text

/-- The text that a name is bound to, without the blanks around it. -/
def Context.binding (context : Context) (name : String) : String :=
  trim ((context.lookup name).getD "")

/-- A text of digits and points, at least one. -/
def IsNumberText (s : String) : Prop := s.toList ≠ [] ∧ ∀ c ∈ s.toList, isNumberChar c = true

instance (s : String) : Decidable (IsNumberText s) :=
  decidable_of_iff (s.toList ≠ [] ∧ s.toList.all isNumberChar = true) (by simp [IsNumberText])

/-! ### Bindings in a text -/

/-- Characters with bindings, each between two blanks, in the place of placeholders. -/
def bindChars (context : Context) (l : List Char) : List Char :=
  match h : placeholder? l with
  | some (name, rest) =>
    have := placeholder?_length h
    ' ' :: (context.binding (String.ofList name)).toList ++ ' ' :: bindChars context rest
  | none =>
    match l with
    | [] => []
    | c :: rest => c :: bindChars context rest
termination_by l.length

/-- A text with bindings, each between two blanks, in the place of placeholders. -/
def bindText (context : Context) (text : String) : String :=
  String.ofList (bindChars context text.toList)

section Chars

variable (context : Context)

theorem bindChars_nil : bindChars context [] = [] := by
  rw [bindChars]
  rfl

theorem bindChars_cons {c : Char} (hc : c ≠ '{') (l : List Char) :
    bindChars context (c :: l) = c :: bindChars context l := by
  have hnone := placeholder?_cons_eq_none hc l
  rw [bindChars]
  split
  · rename_i hsome
    cases hnone.symm.trans hsome
  · rfl

theorem bindChars_append {chars : List Char} (h : '{' ∉ chars) (l : List Char) :
    bindChars context (chars ++ l) = chars ++ bindChars context l := by
  induction chars with
  | nil => rfl
  | cons c chars ih =>
    have hc : c ≠ '{' := fun heq => h (heq ▸ List.mem_cons_self)
    have hchars : '{' ∉ chars := fun hmem => h (List.mem_cons_of_mem c hmem)
    rw [List.cons_append, bindChars_cons context hc, ih hchars, List.cons_append]

theorem bindChars_placeholderChars {name : List Char} (hne : name ≠ []) (h : '}' ∉ name)
    (l : List Char) : bindChars context (placeholderChars name ++ l) =
      ' ' :: (context.binding (String.ofList name)).toList ++ ' ' :: bindChars context l := by
  have hsome := placeholder?_placeholderChars hne h l
  rw [bindChars]
  split
  · rename_i hfound
    cases hsome.symm.trans hfound
    rfl
  · rename_i hnone
    cases hsome.symm.trans hnone

end Chars

/-! ### Bindings in a row of lexemes -/

namespace Piece

/-- One blank. -/
def space : Piece := ⟨none, [' '], .blank (List.cons_ne_nil _ _) (List.forall_mem_singleton.2 rfl)⟩

/-- One number. -/
def number (s : String) (h : IsNumberText s) : Piece := ⟨some .number, s.toList, .number h.1 h.2⟩

/-- The token of a lexeme, at no position. -/
def token? (p : Piece) : Option Token :=
  p.kind.map fun kind => { kind, text := String.ofList p.chars }

/-- Only placeholders have braces in them. -/
theorem brace_not_mem {p : Piece} (h : p.kind ≠ some .placeholder) : '{' ∉ p.chars := by
  obtain ⟨kind, chars, hp⟩ := p
  intro hmem
  cases hp with
  | blank _ hl => exact absurd (hl _ hmem) (by decide)
  | number _ hl => exact absurd (hl _ hmem) (by decide)
  | @identifier c l hc hl =>
    have hall : ∀ d ∈ c :: l, isNameChar d = true :=
      List.forall_mem_cons.2 ⟨isNameChar_of_isNameStart hc, hl⟩
    exact absurd (hall _ hmem) (by decide)
  | operator hop =>
    rw [← List.mem_singleton.1 hmem] at hop
    exact absurd hop (by decide)
  | lparen | rparen => exact absurd hmem (by decide)
  | placeholder => exact h rfl

end Piece

theorem map_unplaced_tokensFrom (position : Nat) (row : List Piece) :
    (tokensFrom position row).map Token.unplaced = row.filterMap Piece.token? := by
  induction row generalizing position with
  | nil => rfl
  | cons p row ih =>
    rw [tokensFrom, List.map_append, ih, List.filterMap_cons]
    cases hk : p.kind <;> simp [Piece.tokens, Piece.token?, hk, Token.unplaced]

/-- The second row is the first one with bindings, each between two blanks, in the place of
placeholders. -/
inductive Binds (context : Context) : List Piece → List Piece → Prop
  | nil : Binds context [] []
  | keep {p : Piece} {row row' : List Piece} (hp : p.kind ≠ some .placeholder)
      (rest : Binds context row row') : Binds context (p :: row) (p :: row')
  | bind {name : List Char} (hne : name ≠ []) (hclosed : '}' ∉ name)
      (hbinding : IsNumberText (context.binding (String.ofList name))) {row row' : List Piece}
      (rest : Binds context row row') :
      Binds context (⟨some .placeholder, placeholderChars name, .placeholder hne hclosed⟩ :: row)
        (.space :: .number _ hbinding :: .space :: row')

/-- The name in a placeholder is read back from its token. -/
theorem placeholderName_placeholderChars {t : Token} {name : List Char}
    (h : t.text = String.ofList (placeholderChars name)) :
    t.placeholderName = String.ofList name := by
  have hlength : (placeholderChars name).length - 5 = name.length := by
    simp [placeholderChars]
  rw [Token.placeholderName, h, String.toList_ofList, String.length_ofList, hlength]
  simp [placeholderChars]

/-- A token with its binding, if it is a placeholder. -/
def Token.bound (context : Context) (t : Token) : Token :=
  if t.kind == .placeholder then
    { kind := .number, text := context.binding t.placeholderName, position := t.position }
  else t

theorem Token.unplaced_bound (context : Context) (t : Token) :
    (t.bound context).unplaced = t.unplaced.bound context := by
  unfold Token.bound
  rw [Token.kind_unplaced]
  split <;> rfl

namespace Binds

variable {context : Context} {row row' : List Piece}

/-- A row whose placeholders are bound to digits and points has such a row. -/
theorem exists_of_tokens (h : ∀ t ∈ row.filterMap Piece.token?, t.kind = .placeholder →
    IsNumberText (context.binding t.placeholderName)) : ∃ row', Binds context row row' := by
  induction row with
  | nil => exact ⟨[], .nil⟩
  | cons p row ih =>
    obtain ⟨row', hrow⟩ := ih fun t ht => h t (List.mem_filterMap.2
      ((List.mem_filterMap.1 ht).imp fun q hq => ⟨List.mem_cons_of_mem p hq.1, hq.2⟩))
    by_cases hp : p.kind = some .placeholder
    · obtain ⟨kind, chars, hlexeme⟩ := p
      cases hp
      cases hlexeme with
      | @placeholder name hne hclosed =>
        have hbinding := h ⟨.placeholder, String.ofList (placeholderChars name), none, none⟩
          (List.mem_filterMap.2 ⟨_, List.mem_cons_self, rfl⟩) rfl
        rw [placeholderName_placeholderChars rfl] at hbinding
        exact ⟨_, .bind hne hclosed hbinding hrow⟩
    · exact ⟨p :: row', .keep hp hrow⟩

/-- The text of the second row is the text of the first one with bindings written into it. -/
theorem bindChars (h : Binds context row row') :
    FormulaBook.bindChars context (spell row) = spell row' := by
  induction h with
  | nil => exact bindChars_nil context
  | keep hp _ ih => rw [spell_cons, bindChars_append context (Piece.brace_not_mem hp), ih, spell_cons]
  | bind hne hclosed _ _ ih =>
    rw [spell_cons, bindChars_placeholderChars context hne hclosed, ih]
    simp [Piece.space, Piece.number]

theorem exists_head_isWord (h : Binds context row row') {q : Piece} (hq : q ∈ row'.head?)
    (hword : q.isWord = true) : ∃ p ∈ row.head?, p.isWord = true := by
  cases h with
  | nil => cases hq
  | keep => exact ⟨q, hq, hword⟩
  | bind =>
    cases hq
    cases hword

/-- Bindings bring no words together. -/
theorem isChain (h : Binds context row row') (happart : row.IsChain Apart) :
    row'.IsChain Apart := by
  induction h with
  | nil => exact .nil
  | @keep p row row' _ rest ih =>
    obtain ⟨hhead, hrow⟩ := List.isChain_cons.1 happart
    refine List.isChain_cons.2 ⟨fun q hq hp => ?_, ih hrow⟩
    by_contra hword
    obtain ⟨q', hq', hword'⟩ := rest.exists_head_isWord hq (by simpa using hword)
    rw [hhead q' hq' hp] at hword'
    cases hword'
  | bind _ _ _ _ ih =>
    have hafter {q : Piece} : Apart .space q := fun hspace => by cases hspace
    have hbefore {q : Piece} : Apart q .space := fun _ => rfl
    refine List.isChain_cons_cons.2 ⟨hafter, List.isChain_cons_cons.2 ⟨hbefore, ?_⟩⟩
    exact List.isChain_cons.2 ⟨fun _ _ => hafter, ih (List.isChain_cons.1 happart).2⟩

/-- The tokens of the second row are those of the first one with their bindings. -/
theorem filterMap_token? (h : Binds context row row') : row'.filterMap Piece.token? =
    (row.filterMap Piece.token?).map (Token.bound context) := by
  induction h with
  | nil => rfl
  | @keep p row row' hp _ ih =>
    rw [List.filterMap_cons, List.filterMap_cons, ih]
    cases hk : p.kind with
    | none => simp [Piece.token?, hk]
    | some kind =>
      have hkind : kind ≠ .placeholder := fun heq => hp (hk.trans (congrArg some heq))
      simp [Piece.token?, hk, Token.bound, hkind]
  | @bind name _ _ _ row row' _ ih =>
    have hname : Token.placeholderName ⟨.placeholder, String.ofList (placeholderChars name), none,
        none⟩ = String.ofList name := placeholderName_placeholderChars rfl
    simp [Piece.token?, Piece.space, Piece.number, ih, Token.bound, hname]

end Binds

/-! ### Bindings in a row of tokens -/

section Tokens

variable {context : Context} {tokens : List Token}

theorem bindPlaceholder_eq_ok {t : Token} (hk : t.kind = .placeholder)
    (h : IsNumberText (context.binding t.placeholderName)) :
    bindPlaceholder context t = .ok (t.bound context) := by
  obtain ⟨htext, hnumber⟩ := h
  have hempty : (context.binding t.placeholderName).isEmpty = false := by
    simpa [String.isEmpty_eq_false_iff] using htext
  have hall : (context.binding t.placeholderName).toList.all isNumberChar = true :=
    List.all_eq_true.2 hnumber
  rw [Context.binding] at hempty hall
  simp only [bindPlaceholder, hempty, hall, Bool.false_eq_true, if_false, if_true, Token.bound, hk,
    beq_self_eq_true, Context.binding]

theorem bindContext_eq_ok (h : ∀ t ∈ tokens, t.kind = .placeholder →
    IsNumberText (context.binding t.placeholderName)) :
    bindContext context tokens = .ok (tokens.map (Token.bound context)) := by
  induction tokens with
  | nil => rfl
  | cons t rest ih =>
    rw [List.forall_mem_cons] at h
    rw [bindContext] at ih ⊢
    rw [mapM_cons_eq_bind, ih h.2, List.map_cons]
    by_cases hk : t.kind = .placeholder
    · rw [if_pos (beq_iff_eq.2 hk), bindPlaceholder_eq_ok hk (h.1 hk)]
      rfl
    · rw [if_neg (by simpa using hk), Token.bound, if_neg (by simpa using hk)]
      rfl

theorem kind_bound_ne (context : Context) (t : Token) :
    (t.bound context).kind ≠ .placeholder := by
  unfold Token.bound
  split
  · simp
  · rename_i hk
    exact fun heq => hk (beq_iff_eq.2 heq)

/-- Tokens whose placeholders can be bound are those with their bindings. -/
theorem eq_map_of_bindContext {row : List Token} (h : bindContext context tokens = .ok row) :
    row = tokens.map (Token.bound context) := by
  refine eq_map_of_mapM (fun t _ u hu => ?_) h
  unfold Token.bound
  split at hu
  · rename_i hk
    rw [if_pos hk]
    unfold bindPlaceholder at hu
    dsimp only at hu
    split at hu
    · cases hu
    split at hu
    · cases hu
      rfl
    · cases hu
  · rename_i hk
    rw [if_neg hk]
    exact (Except.ok.inj hu).symm

/-- What is bound in the place of a placeholder is no name. -/
theorem mem_of_bindContext {row : List Token} (h : bindContext context tokens = .ok row) :
    ∀ t ∈ row, t.kind = .identifier → t ∈ tokens := by
  obtain rfl := eq_map_of_bindContext h
  refine List.forall_mem_map.2 fun t ht => ?_
  unfold Token.bound
  split
  · exact fun hk => nomatch hk
  · exact fun _ => ht

end Tokens

/-! ### Formulas -/

section Formulas

variable {expression : String} {context : Context} {tokens : List Token}
  {values values' : List (String × Float)} {errors errors' : List (String × String)}

theorem execute_of_tokenize (htokens : tokenize expression = .ok tokens) :
    execute expression context values errors = (bindContext context tokens).bind fun row =>
      (bindVariables values errors row).bind evaluateTokens := by
  rw [execute, htokens]
  rfl

/-- A text that cannot be cut has the same error in every context. -/
theorem execute_of_tokenize_error {e : EvalError} (he : tokenize expression = .error e) :
    execute expression context values errors = .error e := by
  rw [execute, he]
  rfl

/-- A formula asks for the values and errors of its names, and for no others: what is known by the
name of a placeholder has no part in it. -/
theorem execute_congr (htokens : tokenize expression = .ok tokens)
    (hvalues : ∀ t ∈ tokens, t.kind = .identifier → values.lookup t.text = values'.lookup t.text)
    (herrors : ∀ t ∈ tokens, t.kind = .identifier → errors.lookup t.text = errors'.lookup t.text) :
    execute expression context values errors = execute expression context values' errors' := by
  rw [execute_of_tokenize htokens, execute_of_tokenize htokens]
  cases hrow : bindContext context tokens with
  | error e => rfl
  | ok row =>
    have hsame : bindVariables values errors row = bindVariables values' errors' row := by
      refine mapM_congr fun t ht => ?_
      by_cases hk : t.kind = .identifier
      · have hmem := mem_of_bindContext hrow t ht hk
        rw [bindName, bindName, hvalues t hmem hk, herrors t hmem hk]
      · simp [hk]
    show (bindVariables values errors row).bind evaluateTokens = _
    rw [hsame]
    rfl

theorem bindName_unplaced (t : Token) : Translates EvalError.unplaced Token.unplaced
    (bindName values errors t) (bindName values errors t.unplaced) := by
  unfold bindName
  rw [Token.text_unplaced]
  split
  · exact .error (EvalError.variableHasError _ _)
  · exact .error (EvalError.unknownVariable _ _)
  · exact .ok (Token.ofValue _ _)

/-- The outcome of a bound row does not depend on the positions of its tokens, but for the position
that an error tells. -/
theorem bindVariables_bind_unplaced (row : List Token) : Translates EvalError.unplaced id
    ((bindVariables values errors row).bind evaluateTokens)
    ((bindVariables values errors (row.map Token.unplaced)).bind evaluateTokens) := by
  refine (Translates.mapM (fun t => ?_) row).bind evaluateTokens_unplaced
  rw [Token.kind_unplaced]
  split
  · exact bindName_unplaced t
  · exact .ok t

/-- Rows that differ in positions come to the same value, or fail with the same kind and message. -/
theorem told_eq_of_unplaced_eq {row row' : List Token}
    (h : row.map Token.unplaced = row'.map Token.unplaced) :
    ((bindVariables values errors row).bind evaluateTokens).mapError EvalError.told =
      ((bindVariables values errors row').bind evaluateTokens).mapError EvalError.told := by
  have htold (row : List Token) :
      ((bindVariables values errors (row.map Token.unplaced)).bind evaluateTokens).mapError
        EvalError.told =
      ((bindVariables values errors row).bind evaluateTokens).mapError EvalError.told := by
    rw [(bindVariables_bind_unplaced row).mapError_eq]
    simp only [EvalError.told_unplaced]
  rw [← htold row, ← htold row', h]

/-- **To bind placeholders is to write their bindings into the text.** Where every placeholder is
bound to digits and points, a formula comes to what the text with the bindings between blanks comes
to without a context: to the same value, or to an error of the same kind with the same message. And
it asks for no variable but those of its names, so none is found under the name of a placeholder. -/
theorem execute_bindText (htokens : tokenize expression = .ok tokens)
    (hbound : ∀ t ∈ tokens, t.kind = .placeholder →
      IsNumberText (context.binding t.placeholderName)) :
    (∀ values errors, (execute expression context values errors).mapError EvalError.told =
      (execute (bindText context expression) [] values errors).mapError EvalError.told) ∧
    ∀ values values' errors errors',
      (∀ t ∈ tokens, t.kind = .identifier → values.lookup t.text = values'.lookup t.text) →
      (∀ t ∈ tokens, t.kind = .identifier → errors.lookup t.text = errors'.lookup t.text) →
      execute expression context values errors = execute expression context values' errors' := by
  refine ⟨fun values errors => ?_, fun _ _ _ _ => execute_congr htokens⟩
  obtain ⟨row, hspell, happart, hrow⟩ := tokenize_eq_ok.1 htokens
  have hplain : row.filterMap Piece.token? = tokens.map Token.unplaced := by
    rw [← hrow, map_unplaced_tokensFrom]
  obtain ⟨row', hbinds⟩ : ∃ row', Binds context row row' := by
    refine Binds.exists_of_tokens ?_
    rw [hplain]
    exact List.forall_mem_map.2 hbound
  -- The text with the bindings is cut into the tokens of the row with the bindings.
  have htokens' : tokenize (bindText context expression) = .ok (tokensFrom 0 row') := by
    refine tokenize_eq_ok.2 ⟨row', ?_, hbinds.isChain happart, rfl⟩
    rw [bindText, ← hspell, hbinds.bindChars, String.toList_ofList]
  have hsame : (tokens.map (Token.bound context)).map Token.unplaced =
      (tokensFrom 0 row').map Token.unplaced := by
    rw [map_unplaced_tokensFrom, hbinds.filterMap_token?, hplain, List.map_map, List.map_map]
    exact List.map_congr_left fun t _ => Token.unplaced_bound context t
  have hplain' : ∀ t ∈ tokensFrom 0 row', t.kind ≠ .placeholder := by
    intro t ht
    have hmem : t.unplaced ∈ (tokens.map (Token.bound context)).map Token.unplaced :=
      hsame ▸ List.mem_map_of_mem ht
    obtain ⟨u, hu, heq⟩ := List.mem_map.1 hmem
    obtain ⟨s, -, rfl⟩ := List.mem_map.1 hu
    rw [← t.kind_unplaced, ← heq, Token.kind_unplaced]
    exact kind_bound_ne context s
  rw [execute_of_tokenize htokens, execute_of_tokenize htokens', bindContext_eq_ok hbound,
    bindContext_of_plain [] hplain']
  exact told_eq_of_unplaced_eq hsame

/-- Placeholders beside a digit and beside each other, one with the name of a variable and one with
braces in its name. An error of that name is not the error of any variable in the expression. -/
theorem execute_bindText_glued :
    let context : Context := [("A", " 2 "), ("B\x7b\x7b#", "\n.5")]
    let expression := "5\x7b\x7b#A\x7d\x7d\x7b\x7b#B\x7b\x7b#\x7d\x7d-A"
    (∃ tokens, tokenize expression = .ok tokens ∧ ∀ t ∈ tokens, t.kind = .placeholder →
      IsNumberText (context.binding t.placeholderName)) ∧
    bindText context expression = "5 2  .5 -A" ∧
    (execute expression context [("A", 3)] []).mapError EvalError.told =
      (execute "5 2  .5 -A" [] [("A", 3)] []).mapError EvalError.told ∧
    execute expression context [("A", 3)] [("B\x7b\x7b#", "failed")] =
      execute expression context [("A", 3)] [] := by
  intro context expression
  obtain ⟨tokens, hmem, hbound, herrors⟩ : ∃ tokens ∈ (tokenize expression).toOption,
      (∀ t ∈ tokens, t.kind = .placeholder → IsNumberText (context.binding t.placeholderName)) ∧
      ∀ t ∈ tokens, t.kind = .identifier →
        [("B\x7b\x7b#", "failed")].lookup t.text = ([] : List (String × String)).lookup t.text := by
    decide +kernel
  have htokens : tokenize expression = .ok tokens := mem_toOption.1 hmem
  have htext : bindText context expression = "5 2  .5 -A" := by decide +kernel
  obtain ⟨hsame, hnames⟩ := execute_bindText htokens hbound
  refine ⟨⟨tokens, htokens, hbound⟩, htext, ?_, hnames _ _ _ _ (fun _ _ _ => rfl) herrors⟩
  rw [← htext]
  exact hsame _ _

end Formulas

end FormulaBook
