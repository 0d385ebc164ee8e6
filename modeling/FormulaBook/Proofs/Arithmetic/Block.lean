import FormulaBook.Proofs.Arithmetic.Yard

/-!
# Values in the place of expressions

An expression in parentheses can be replaced by its value. This holds in every row, also in one
that is malformed on either side, and with the same error if there is one: the row in parentheses
is written out as one block, and the block leaves its value on the stack, whatever lies below.

* `evaluateStep_append`, `foldlM_evaluateStep_append`: evaluation on a deeper stack;
* `evaluatePostfix_block`: blocks of one value are interchangeable in a postfix row;
* `evaluateTokens_parenthesized`: a value in the place of an expression.
-/

namespace FormulaBook

/-! ### Evaluation on a deeper stack -/

/-- A step that succeeds does not reach what lies below the stack it is made on. -/
theorem evaluateStep_append {stack stack' : List Float} {t : Token}
    (h : evaluateStep stack t = .ok stack') (below : List Float) :
    evaluateStep (stack ++ below) t = .ok (stack' ++ below) := by
  unfold evaluateStep at h ⊢
  cases hk : t.kind with
  | number =>
    simp only [hk] at h ⊢
    obtain ⟨x, hx, rfl⟩ := map_eq_ok.1 h
    rw [hx]
    rfl
  | operator =>
    simp only [hk] at h ⊢
    match stack, h with
    | right :: left :: rest, h =>
      cases hop : Operator.ofText? t.text with
      | none => simp [hop] at h
      | some op =>
        simp only [hop] at h
        simp only [List.cons_append]
        obtain ⟨x, hx, rfl⟩ := map_eq_ok.1 h
        rw [hx]
        rfl
  | lparen | rparen | identifier | placeholder => simp [hk] at h

theorem foldlM_evaluateStep_append {l : List Token} {stack stack' : List Float}
    (h : l.foldlM evaluateStep stack = .ok stack') (below : List Float) :
    l.foldlM evaluateStep (stack ++ below) = .ok (stack' ++ below) := by
  have hstep : ∀ s t s', evaluateStep s t = .ok s' →
      evaluateStep (s ++ below) t = .ok (s' ++ below) := fun s t s' hs =>
    evaluateStep_append hs below
  exact foldlM_frame hstep h

theorem theValue_eq_ok {stack : List Float} {x : Float} (h : theValue stack = .ok x) :
    stack = [x] := by
  match stack, h with
  | [y], h =>
    cases h
    rfl

/-- A block with a value pushes it on any stack. -/
theorem foldlM_of_evaluatePostfix {block : List Token} {x : Float}
    (h : evaluatePostfix block = .ok x) (stack : List Float) :
    block.foldlM evaluateStep stack = .ok (x :: stack) := by
  rw [evaluatePostfix] at h
  obtain ⟨s, hs, hvalue⟩ := bind_eq_ok.1 h
  rw [theValue_eq_ok hvalue] at hs
  exact foldlM_evaluateStep_append hs stack

/-- Blocks of one value are interchangeable in a postfix row. -/
theorem evaluatePostfix_block {block block' : List Token} {x : Float}
    (h : evaluatePostfix block = .ok x) (h' : evaluatePostfix block' = .ok x)
    (before after : List Token) :
    evaluatePostfix (before ++ block ++ after) = evaluatePostfix (before ++ block' ++ after) := by
  have pushes {b : List Token} (hb : evaluatePostfix b = .ok x) :
      (before ++ b ++ after).foldlM evaluateStep [] =
        (before.foldlM evaluateStep []).bind fun s => after.foldlM evaluateStep (x :: s) := by
    rw [List.append_assoc, List.foldlM_append]
    cases before.foldlM evaluateStep [] with
    | error e => rfl
    | ok s =>
      show (b ++ after).foldlM evaluateStep s = after.foldlM evaluateStep (x :: s)
      rw [List.foldlM_append, foldlM_of_evaluatePostfix hb]
      rfl
  rw [evaluatePostfix, evaluatePostfix, pushes h, pushes h']

/-- Parts of a row that are written out by themselves, as blocks of one value, are
interchangeable. -/
theorem evaluate_of_writes {part part' row row' : List Token} {x : Float}
    (hw : Yard.Writes part row) (hw' : Yard.Writes part' row')
    (h : evaluatePostfix row = .ok x) (h' : evaluatePostfix row' = .ok x) (xs ys : List Token) :
    (toPostfix (xs ++ part ++ ys)).bind evaluatePostfix =
      (toPostfix (xs ++ part' ++ ys)).bind evaluatePostfix := by
  rw [Yard.toPostfix_of_writes hw, Yard.toPostfix_of_writes hw']
  cases xs.foldlM Yard.step {} with
  | error e => rfl
  | ok y =>
    show (((ys.foldlM Yard.step ⟨[], y.waiting⟩).bind Yard.finish).map _).bind evaluatePostfix =
      (((ys.foldlM Yard.step ⟨[], y.waiting⟩).bind Yard.finish).map _).bind evaluatePostfix
    cases (ys.foldlM Yard.step ⟨[], y.waiting⟩).bind Yard.finish with
    | error e => rfl
    | ok after => exact evaluatePostfix_block h h' y.output.reverse after

/-! ### Values and parentheses -/

theorem evaluatePostfix_ofValue (x : Float) (position : Option Int) :
    evaluatePostfix [Token.ofValue x position] = .ok x := rfl

/-- **A value in the place of an expression in parentheses changes nothing**, neither the value of
the row around it nor its error, whatever stands on both sides. -/
theorem evaluateTokens_parenthesized {e : List Token} {x : Float} (he : evaluateTokens e = .ok x)
    (p : Parentheses) (position : Option Int) (xs ys : List Token) :
    evaluateTokens (xs ++ [Token.ofValue x position] ++ ys) =
      evaluateTokens (xs ++ [p.opening] ++ e ++ [p.closing] ++ ys) := by
  have hopen : p.opening.isLiteral = false := isLiteral_of_kind_ne (by simp [p.opens])
  have hclose : p.closing.isLiteral = false := isLiteral_of_kind_ne (by simp [p.closes])
  have hvalue : mergeLiterals (xs ++ [Token.ofValue x position] ++ ys) =
      mergeLiterals xs ++ [Token.ofValue x position] ++ mergeLiterals ys := by
    simp [mergeLiterals_append_cons (t := Token.ofValue x position) rfl]
  have hgroup : mergeLiterals (xs ++ [p.opening] ++ e ++ [p.closing] ++ ys) =
      mergeLiterals xs ++ (p.opening :: (mergeLiterals e ++ [p.closing])) ++ mergeLiterals ys := by
    simp [mergeLiterals_append_cons hopen, mergeLiterals_append_cons hclose]
  rw [evaluateTokens] at he
  obtain ⟨row, hrow, hx⟩ := bind_eq_ok.1 he
  rw [evaluateTokens, evaluateTokens, hvalue, hgroup]
  exact evaluate_of_writes (Yard.writes_number rfl) (Yard.writes_group p hrow)
    (evaluatePostfix_ofValue x position) hx _ _

/-- A negative value, which no literal denotes, before a parenthesis that was never open. -/
theorem evaluateTokens_parenthesized_negative :
    let minus : List Token :=
      [⟨.number, "1", none, none⟩, ⟨.operator, "-", none, none⟩, ⟨.number, "3", none, none⟩]
    let before : List Token := [⟨.number, "2", none, none⟩, ⟨.operator, "/", none, none⟩]
    let after : List Token := [⟨.rparen, ")", none, none⟩]
    evaluateTokens minus = .ok (-2) ∧
      evaluateTokens (before ++ [Token.ofValue (-2)] ++ after) =
        evaluateTokens (before ++ [⟨.lparen, "(", none, none⟩] ++ minus ++
          [⟨.rparen, ")", none, none⟩] ++ after) := by
  intro minus before after
  have hminus : evaluateTokens minus = .ok (-2) := by decide +kernel
  exact ⟨hminus, evaluateTokens_parenthesized hminus
    ⟨⟨.lparen, "(", none, none⟩, ⟨.rparen, ")", none, none⟩, rfl, rfl⟩ none before after⟩

end FormulaBook
