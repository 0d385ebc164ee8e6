import FormulaBook.Proofs.Arithmetic.ExprTree
import FormulaBook.Proofs.Arithmetic.Yard
import FormulaBook.Proofs.Lexing.Language

/-!
# The errors of an expression

An expression can be wrong by itself, whatever its names stand for: it has a character that begins
no token, its parentheses do not match, an operand is missing, or it divides by zero. No other error
comes from reading or evaluating it. In particular every operator in it has a rank, since a text
has no operators but the four.

* `EvalError.OfText`, `EvalError.OfTokens`: the errors that an expression has by itself;
* `Token.Ranked`: a token that is one of the four operators, if it is an operator;
* `ranked_of_tokenize`, `ofTokens_of_tokenize`: what a text is cut into, and why it is not;
* `ofTokens_of_evaluateTokens`: why a row of such tokens has no value.
-/

namespace FormulaBook

/-- The errors that an expression has by itself, whatever its names stand for. -/
def EvalError.OfText : EvalError → Prop
  | .invalidCharacter _ | .mismatchedParentheses | .invalidExpression _ | .divisionByZero => True
  | _ => False

/-- The errors that the tokens of an expression have by themselves. -/
def EvalError.OfTokens : EvalError → Prop
  | .invalidCharacter _ | .mismatchedParentheses | .divisionByZero
  | .invalidExpression .operands | .invalidExpression .literal
  | .invalidExpression (.operator _) => True
  | _ => False

theorem EvalError.OfTokens.ofText {e : EvalError} (h : e.OfTokens) : e.OfText := by
  unfold OfTokens at h
  split at h <;> trivial

/-- An operator token is one of the four operators. -/
def Token.Ranked (t : Token) : Prop := t.kind = .operator → (Operator.ofText? t.text).isSome = true

instance (t : Token) : Decidable t.Ranked := by unfold Token.Ranked; infer_instance

theorem Token.ranked_of_kind_ne {t : Token} (h : t.kind ≠ .operator) : t.Ranked :=
  fun hk => absurd hk h

/-! ### Reading a text -/

theorem ofText?_isSome_of_isOperatorChar {c : Char} (h : isOperatorChar c = true) :
    (Operator.ofText? (String.ofList [c])).isSome = true := by
  simp only [isOperatorChar, Bool.or_eq_true, beq_iff_eq] at h
  obtain ((rfl | rfl) | rfl) | rfl := h <;> rfl

/-- A lexeme that is an operator is one of the four. -/
theorem ofText?_of_lexeme? {l : List Char} {x : Lexeme} (h : lexeme? l = some x)
    (hk : x.kind = some .operator) : (Operator.ofText? (String.ofList x.chars)).isSome = true := by
  unfold lexeme? at h
  split at h
  · cases h
  · rename_i c rest
    repeat' split at h
    all_goals try (cases h; simp [Lexeme.run] at hk; done)
    · rename_i hc
      cases h
      exact ofText?_isSome_of_isOperatorChar hc
    · obtain ⟨p, -, rfl⟩ := Option.map_eq_some_iff.1 h
      simp at hk

theorem ranked_of_scan {position : Nat} {l : List Char} {tokens : List Token}
    (h : scan position l = .ok tokens) : ∀ t ∈ tokens, t.Ranked := by
  fun_induction scan position l generalizing tokens with
  | case1 position =>
    cases h
    simp
  | case2 => cases h
  | case3 => cases h
  | case4 position c tail x hx _ tokens' hk hrest ih =>
    cases h
    exact ih hrest
  | case5 position c tail x hx _ tokens' kind hk hrest ih =>
    cases h
    refine List.forall_mem_cons.2 ⟨fun hop => ?_, ih hrest⟩
    cases hop
    exact ofText?_of_lexeme? hx hk

/-- The operators of a text are the four operators. -/
theorem ranked_of_tokenize {text : String} {tokens : List Token} (h : tokenize text = .ok tokens) :
    ∀ t ∈ tokens, t.Ranked := by
  unfold tokenize at h
  split at h
  · cases h
  · rename_i row hrow
    split at h
    · cases h
    · cases h
      exact ranked_of_scan hrow

theorem ofTokens_of_tokenize {text : String} {e : EvalError} (h : tokenize text = .error e) :
    e.OfTokens := by
  obtain ⟨place, rfl⟩ := tokenize_eq_error h
  trivial

theorem ofText_of_tokenize {text : String} {e : EvalError} (h : tokenize text = .error e) :
    e.OfText :=
  (ofTokens_of_tokenize h).ofText

/-- A text with blanks and the characters of a text without names is evaluated without its
blanks. -/
theorem evaluate_of_forall {text : String}
    (h : ∀ c ∈ text.toList.filter (!Text.isBlank ·), isArithmeticChar c = true) :
    evaluate text =
      (tokenize (String.ofList (text.toList.filter (!Text.isBlank ·)))).bind evaluateTokens := by
  have hnone : (text.toList.filter (!Text.isBlank ·)).findIdx? (!isArithmeticChar ·) = none := by
    rw [List.findIdx?_eq_none_iff]
    intro c hc
    rw [h c hc]
    rfl
  simp only [evaluate, hnone]

/-! ### Evaluating a row -/

theorem ranked_of_mem_mergeLiterals {l : List Token} (hl : ∀ t ∈ l, t.Ranked) :
    ∀ t ∈ mergeLiterals l, t.Ranked := by
  refine forall_mem_mergeLiterals (fun a b hliteral _ => Token.ranked_of_kind_ne ?_) hl
  have hnumber : a.kind = .number := by simpa using (Bool.and_eq_true_iff.1 hliteral).1
  simp [Token.join, hnumber]

theorem Yard.ofTokens_of_step {y : Yard} {t : Token} {e : EvalError} (ht : t.Ranked)
    (h : y.step t = .error e) : e.OfTokens := by
  unfold Yard.step at h
  cases hk : t.kind with
  | number | lparen => simp [hk] at h
  | operator =>
    obtain ⟨op, hop⟩ := Option.isSome_iff_exists.1 (ht hk)
    simp [hk, hop] at h
  | rparen =>
    simp only [hk] at h
    split at h
    · cases h
      trivial
    · cases h
  | identifier | placeholder =>
    simp only [hk] at h
    cases h
    trivial

theorem Yard.ofTokens_of_finish {y : Yard} {e : EvalError} (h : y.finish = .error e) :
    e.OfTokens := by
  unfold Yard.finish at h
  split at h
  · cases h
    trivial
  · cases h

theorem ofTokens_of_toPostfix {l : List Token} {e : EvalError} (hl : ∀ t ∈ l, t.Ranked)
    (h : toPostfix l = .error e) : e.OfTokens := by
  rw [toPostfix] at h
  obtain hread | ⟨y, -, hfinish⟩ := bind_eq_error.1 h
  · exact foldlM_error (fun t ht y e he => Yard.ofTokens_of_step (hl t ht) he) hread
  · exact Yard.ofTokens_of_finish hfinish

theorem ofTokens_of_evaluateStep {stack : List Float} {t : Token} {e : EvalError}
    (h : evaluateStep stack t = .error e) : e.OfTokens := by
  unfold evaluateStep at h
  cases hk : t.kind with
  | number =>
    simp only [hk] at h
    rw [number_eq_error (map_eq_error.1 h)]
    trivial
  | operator =>
    simp only [hk] at h
    split at h
    · split at h
      · rw [(apply_eq_error (map_eq_error.1 h)).2.2]
        trivial
      · cases h
        trivial
    · cases h
      trivial
  | lparen | rparen | identifier | placeholder =>
    simp only [hk] at h
    cases h
    trivial

theorem ofTokens_of_evaluatePostfix {l : List Token} {e : EvalError}
    (h : evaluatePostfix l = .error e) : e.OfTokens := by
  rw [evaluatePostfix] at h
  obtain hrun | ⟨stack, -, hvalue⟩ := bind_eq_error.1 h
  · exact foldlM_error (fun t _ stack e he => ofTokens_of_evaluateStep he) hrun
  · unfold theValue at hvalue
    split at hvalue
    · cases hvalue
    · cases hvalue
      trivial

/-- A row whose operators are the four operators fails only for a reason of its own. -/
theorem ofTokens_of_evaluateTokens {l : List Token} {e : EvalError} (hl : ∀ t ∈ l, t.Ranked)
    (h : evaluateTokens l = .error e) : e.OfTokens := by
  rw [evaluateTokens] at h
  obtain hread | ⟨row, -, hrun⟩ := bind_eq_error.1 h
  · exact ofTokens_of_toPostfix (ranked_of_mem_mergeLiterals hl) hread
  · exact ofTokens_of_evaluatePostfix hrun

theorem ofText_of_evaluateTokens {l : List Token} {e : EvalError} (hl : ∀ t ∈ l, t.Ranked)
    (h : evaluateTokens l = .error e) : e.OfText :=
  (ofTokens_of_evaluateTokens hl h).ofText

end FormulaBook
