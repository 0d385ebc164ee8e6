import FormulaBook.Proofs.Lexing.Binding

/-!
# The names that an expression asks for

The placeholders of an expression are found in two ways: they are among its tokens, and a search
through the text finds them without cutting it. Where the text can be cut, both find the same ones.
So the names that the search lists are all that a context has to bind.

* `placeholdersOf`: the names in the placeholders among some tokens;
* `placeholderNames_spell`: the search through the text of a row of lexemes;
* `contextNames_of_tokenize`, `mem_contextNames`: the names that are listed for an expression;
* `EvalError.AboutBinding`, `of_execute_aboutBinding`: the errors about a binding, and which binding
  is at fault;
* `execute_congr_binding`: bindings that are not asked for have no part in the outcome;
* `contextNames_sound_complete`: what the list promises.
-/

namespace FormulaBook

open Text

/-- The names in the placeholders among some tokens, from left to right. -/
def placeholdersOf (tokens : List Token) : List String :=
  (tokens.filter (·.kind == .placeholder)).map (·.placeholderName)

theorem mem_placeholdersOf {tokens : List Token} {name : String} : name ∈ placeholdersOf tokens ↔
    ∃ t ∈ tokens, t.kind = .placeholder ∧ t.placeholderName = name := by
  simp [placeholdersOf, and_assoc]

/-! ### The search through a text -/

section Search

theorem placeholderNames_nil : placeholderNames [] = [] := by
  rw [placeholderNames]
  rfl

theorem placeholderNames_cons {c : Char} (hc : c ≠ '{') (l : List Char) :
    placeholderNames (c :: l) = placeholderNames l := by
  have hnone := placeholder?_cons_eq_none hc l
  rw [placeholderNames]
  split
  · rename_i hsome
    cases hnone.symm.trans hsome
  · rfl

theorem placeholderNames_append {chars : List Char} (h : '{' ∉ chars) (l : List Char) :
    placeholderNames (chars ++ l) = placeholderNames l := by
  induction chars with
  | nil => rfl
  | cons c chars ih =>
    rw [List.mem_cons, not_or] at h
    rw [List.cons_append, placeholderNames_cons (Ne.symm h.1), ih h.2]

theorem placeholderNames_placeholderChars {name : List Char} (hne : name ≠ []) (h : '}' ∉ name)
    (l : List Char) : placeholderNames (placeholderChars name ++ l) =
      String.ofList name :: placeholderNames l := by
  have hsome := placeholder?_placeholderChars hne h l
  rw [placeholderNames]
  split
  · rename_i hfound
    cases hsome.symm.trans hfound
    rfl
  · rename_i hnone
    cases hsome.symm.trans hnone

theorem infix_of_mem_placeholderNames {l : List Char} {name : String}
    (h : name ∈ placeholderNames l) : placeholderChars name.toList <:+: l := by
  fun_induction placeholderNames l with
  | case1 l chars rest hfound _ ih =>
    rw [← placeholder?_append hfound]
    obtain rfl | hrest := List.mem_cons.1 h
    · rw [String.toList_ofList]
      exact (List.prefix_append _ _).isInfix
    · exact (ih hrest).trans (List.suffix_append _ _).isInfix
  | case2 => cases h
  | case3 d rest _ ih => exact (ih h).trans (List.suffix_cons d rest).isInfix

/-- In the text of a row of lexemes the search finds the placeholders of the row: it cannot begin
inside of another lexeme, where no brace is, nor inside of a placeholder, which it skips. -/
theorem placeholderNames_spell (row : List Piece) (position : Nat) :
    placeholderNames (spell row) = placeholdersOf (tokensFrom position row) := by
  induction row generalizing position with
  | nil => exact placeholderNames_nil
  | cons p row ih =>
    rw [spell_cons, tokensFrom, placeholdersOf, List.filter_append, List.map_append]
    by_cases hp : p.kind = some .placeholder
    · obtain ⟨kind, chars, hlexeme⟩ := p
      cases hp
      cases hlexeme with
      | @placeholder name hne hclosed =>
        rw [placeholderNames_placeholderChars hne hclosed,
          ih (position + size (placeholderChars name))]
        have hname := placeholderName_placeholderChars (t :=
          ⟨.placeholder, String.ofList (placeholderChars name), none, some position⟩) rfl
        simp [Piece.tokens, placeholdersOf, hname]
    · rw [placeholderNames_append (Piece.brace_not_mem hp), ih (position + size p.chars)]
      cases hk : p.kind with
      | none => simp [Piece.tokens, placeholdersOf, hk]
      | some kind =>
        have hkind : kind ≠ .placeholder := fun heq => hp (hk.trans (congrArg some heq))
        simp [Piece.tokens, placeholdersOf, hk, hkind]

end Search

/-! ### The list of an expression -/

section List

variable {expression : String} {tokens : List Token} {name : String}

/-- The names that are asked for are pieces of the text. -/
theorem infix_of_mem_contextNames (h : name ∈ contextNames expression) :
    placeholderChars name.toList <:+: expression.toList := by
  rw [contextNames, List.mem_eraseDups] at h
  exact infix_of_mem_placeholderNames h

theorem mem_of_mem_contextNames (h : name ∈ contextNames expression) {c : Char}
    (hc : c ∈ name.toList) : c ∈ expression.toList :=
  (infix_of_mem_contextNames h).subset (by simp [placeholderChars, hc])

theorem contextNames_of_tokenize (h : tokenize expression = .ok tokens) :
    contextNames expression = (placeholdersOf tokens).eraseDups := by
  obtain ⟨row, hspell, -, rfl⟩ := tokenize_eq_ok.1 h
  rw [contextNames, ← hspell, placeholderNames_spell row 0]

theorem mem_contextNames (h : tokenize expression = .ok tokens) : name ∈ contextNames expression ↔
    ∃ t ∈ tokens, t.kind = .placeholder ∧ t.placeholderName = name := by
  rw [contextNames_of_tokenize h, List.mem_eraseDups, mem_placeholdersOf]

end List

/-! ### Errors about bindings -/

/-- The errors about what a name is bound to: it is bound to no text, or not to a number. -/
def EvalError.AboutBinding (name : String) (e : EvalError) : Prop :=
  e = .missingContextValue name ∨ ∃ raw, e = .invalidContextValue name raw

section Errors

variable {expression : String} {context context' : Context} {tokens : List Token} {name : String}
  {values : List (String × Float)} {errors : List (String × String)} {e : EvalError}

theorem EvalError.OfText.not_aboutBinding (h : e.OfText) : ¬ e.AboutBinding name := by
  rintro (rfl | ⟨raw, rfl⟩)
  · exact h
  · exact h

theorem bindPlaceholder_eq_error {t : Token} (h : bindPlaceholder context t = .error e) :
    ¬ IsNumberText (context.binding t.placeholderName) ∧
      (e.AboutBinding name → t.placeholderName = name) := by
  unfold bindPlaceholder at h
  dsimp only at h
  rw [← Context.binding] at h
  split at h
  · rename_i hempty
    cases h
    refine ⟨fun hnumber => hnumber.1 (by simpa using hempty), ?_⟩
    rintro (habout | ⟨raw, habout⟩)
    · exact EvalError.missingContextValue.inj habout
    · cases habout
  split at h
  · cases h
  · rename_i hall
    cases h
    refine ⟨fun hnumber => hall (List.all_eq_true.2 hnumber.2), ?_⟩
    rintro (habout | ⟨raw, habout⟩)
    · cases habout
    · exact (EvalError.invalidContextValue.inj habout).1

theorem not_aboutBinding_of_bindVariables {row : List Token}
    (h : bindVariables values errors row = .error e) : ¬ e.AboutBinding name := by
  obtain ⟨before, t, after, -, -, ht⟩ := mapM_eq_error.1 h
  split at ht
  · unfold bindName at ht
    rintro (rfl | ⟨raw, rfl⟩) <;> split at ht <;> cases ht
  · cases ht

/-- The operators of bound tokens are those of the expression. -/
theorem ranked_of_bindContext {row : List Token} (htokens : ∀ t ∈ tokens, t.Ranked)
    (h : bindContext context tokens = .ok row) : ∀ t ∈ row, t.Ranked := by
  obtain rfl := eq_map_of_bindContext h
  refine List.forall_mem_map.2 fun t ht => ?_
  unfold Token.bound
  split
  · exact Token.ranked_of_kind_ne (by simp)
  · exact htokens t ht

/-- An error about a binding is the fault of that binding, and the expression asks for it. -/
theorem of_execute_aboutBinding (h : execute expression context values errors = .error e)
    (habout : e.AboutBinding name) :
    name ∈ contextNames expression ∧ ¬ IsNumberText (context.binding name) := by
  cases htokens : tokenize expression with
  | error e' =>
    rw [execute_of_tokenize_error htokens] at h
    cases h
    exact absurd habout (ofText_of_tokenize htokens).not_aboutBinding
  | ok tokens =>
    rw [execute_of_tokenize htokens] at h
    obtain hbind | ⟨row, hrow, hrest⟩ := bind_eq_error.1 h
    · obtain ⟨before, t, after, rfl, -, ht⟩ := mapM_eq_error.1 hbind
      split at ht
      · rename_i hk
        obtain ⟨hnumber, hname⟩ := bindPlaceholder_eq_error ht
        obtain rfl := hname habout
        refine ⟨(mem_contextNames htokens).2 ⟨t, ?_, eq_of_beq hk, rfl⟩, hnumber⟩
        exact List.mem_append_right before List.mem_cons_self
      · cases ht
    · obtain hnames | ⟨row', hrow', hvalue⟩ := bind_eq_error.1 hrest
      · exact absurd habout (not_aboutBinding_of_bindVariables hnames)
      · -- What is left are the errors that an expression has by itself.
        have hranked := ranked_of_bindContext (ranked_of_tokenize htokens) hrow
        have hranked' := ranked_of_bindVariables hranked hrow'
        exact absurd habout (ofText_of_evaluateTokens hranked' hvalue).not_aboutBinding

/-- An expression asks for the bindings of its list, and for no others. -/
theorem execute_congr_binding
    (h : ∀ name ∈ contextNames expression, context.binding name = context'.binding name) :
    execute expression context values errors = execute expression context' values errors := by
  cases htokens : tokenize expression with
  | error e => rw [execute_of_tokenize_error htokens, execute_of_tokenize_error htokens]
  | ok tokens =>
    have hsame : bindContext context tokens = bindContext context' tokens := by
      refine mapM_congr fun t ht => ?_
      by_cases hk : t.kind = .placeholder
      · have hbinding := h t.placeholderName ((mem_contextNames htokens).2 ⟨t, ht, hk, rfl⟩)
        rw [Context.binding, Context.binding] at hbinding
        simp only [bindPlaceholder, hbinding]
      · simp [hk]
    rw [execute_of_tokenize htokens, execute_of_tokenize htokens, hsame]

end Errors

/-- **The list of an expression is what a context has to bind.** Where the text is cut into tokens,
the list has the names in its placeholders, each once, in the order in which they first appear. For
every text, a context that binds the listed names to digits and points is never refused for a
binding; a context that is refused is refused for a listed name; and contexts that bind the listed
names to the same texts, up to blanks at the ends, give the same outcome. -/
theorem contextNames_sound_complete (expression : String) :
    (∀ tokens, tokenize expression = .ok tokens →
      contextNames expression = (placeholdersOf tokens).eraseDups) ∧
    ∀ (context : Context) (values : List (String × Float)) (errors : List (String × String)),
      ((∀ name ∈ contextNames expression, IsNumberText (context.binding name)) →
        ∀ name e, execute expression context values errors = .error e → ¬ e.AboutBinding name) ∧
      (∀ name e, execute expression context values errors = .error e → e.AboutBinding name →
        name ∈ contextNames expression) ∧
      ∀ context' : Context,
        (∀ name ∈ contextNames expression, context.binding name = context'.binding name) →
          execute expression context values errors = execute expression context' values errors := by
  refine ⟨fun tokens => contextNames_of_tokenize, fun context values errors => ⟨?_, ?_, ?_⟩⟩
  · intro hbound name e he habout
    obtain ⟨hlisted, hnumber⟩ := of_execute_aboutBinding he habout
    exact hnumber (hbound name hlisted)
  · intro name e he habout
    exact (of_execute_aboutBinding he habout).1
  · intro context' h
    exact execute_congr_binding h

/-- One name with braces in it, asked for twice, and one with blanks at its ends: a context that
binds both, one that binds them otherwise blanked beside a name that is not asked for, and one that
binds the second name without its blanks. -/
theorem contextNames_sound_complete_nested :
    let expression := "\x7b\x7b#A\x7b\x7b#B\x7d\x7d / \x7b\x7b# C\n\x7d\x7d" ++
      "-\x7b\x7b#A\x7b\x7b#B\x7d\x7d"
    let context : Context := [("A\x7b\x7b#B", " 1."), (" C\n", "0\t")]
    let context' : Context := [("C", "x"), ("A\x7b\x7b#B", "1.\n"), (" C\n", "0")]
    contextNames expression = ["A\x7b\x7b#B", " C\n"] ∧
    (∀ name ∈ contextNames expression, IsNumberText (context.binding name)) ∧
    execute expression context [] [] = .error .divisionByZero ∧
    (∀ name, ¬ EvalError.divisionByZero.AboutBinding name) ∧
    execute expression context' [] [] = execute expression context [] [] ∧
    execute expression [("A\x7b\x7b#B", "1"), ("C", "2")] [] [] =
      .error (.missingContextValue " C\n") ∧
    " C\n" ∈ contextNames expression := by
  intro expression context context'
  have hnames : contextNames expression = ["A\x7b\x7b#B", " C\n"] := by decide +kernel
  have hbound : ∀ name ∈ contextNames expression, IsNumberText (context.binding name) := by
    rw [hnames]
    decide +kernel
  have hsame : ∀ name ∈ contextNames expression, context.binding name = context'.binding name := by
    rw [hnames]
    decide +kernel
  have hzero : execute expression context [] [] = .error .divisionByZero := by decide +kernel
  have hmissing : execute expression [("A\x7b\x7b#B", "1"), ("C", "2")] [] [] =
      .error (.missingContextValue " C\n") := by
    decide +kernel
  obtain ⟨hnever, -, hcongr⟩ := (contextNames_sound_complete expression).2 context [] []
  obtain ⟨-, hlisted, -⟩ :=
    (contextNames_sound_complete expression).2 [("A\x7b\x7b#B", "1"), ("C", "2")] [] []
  exact ⟨hnames, hbound, hzero, fun name => hnever hbound name _ hzero,
    (hcongr context' hsame).symm, hmissing, hlisted _ _ hmissing (.inl rfl)⟩

end FormulaBook
