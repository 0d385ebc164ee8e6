import FormulaBook.Proofs.Outcome
import FormulaBook.Token.Evaluate

/-!
# Expression trees

What an expression says once its parentheses have done their work: numbers at the leaves and
operators at the nodes. The postfix order of an expression lists such a tree with each operator
after its operands.

* `NumberToken`, `OperatorToken`: tokens that are known to be numbers and operators;
* `ExprTree`, `ExprTree.postorder`, `ExprTree.value`: trees, their postfix rows and their values;
* `foldlM_postorder`: a postfix row pushes the value of its tree, whatever lies on the stack and
  whatever follows;
* `evaluatePostfix_postorder`: the evaluation of the row is the value of the tree.
-/

namespace FormulaBook

/-- A token that is a number: a literal or a known value. -/
structure NumberToken where
  token : Token
  isNumber : token.kind = .number

/-- A token that is one of the four operators. -/
structure OperatorToken where
  token : Token
  operator : Operator
  isOperator : token.kind = .operator
  denotes : Operator.ofText? token.text = some operator

/-- An expression without parentheses. -/
inductive ExprTree where
  | leaf (number : NumberToken)
  | node (left : ExprTree) (sign : OperatorToken) (right : ExprTree)

namespace ExprTree

/-- The tokens of a tree, each operator after its operands. -/
def postorder : ExprTree → List Token
  | .leaf number => [number.token]
  | .node left sign right => left.postorder ++ right.postorder ++ [sign.token]

/-- The value of a tree: the left operand is evaluated first, then the right one, and then the
operator is applied. The first of these that fails decides the error. -/
def value : ExprTree → Except EvalError Float
  | .leaf number => number.token.number
  | .node left sign right => do
    let x ← left.value
    let y ← right.value
    sign.operator.apply x y

end ExprTree

/-! ### Evaluation on a stack -/

theorem evaluateStep_number (n : NumberToken) (stack : List Float) :
    evaluateStep stack n.token = n.token.number.map (· :: stack) := by
  unfold evaluateStep
  rw [n.isNumber]

theorem evaluateStep_operator (sign : OperatorToken) (x y : Float) (stack : List Float) :
    evaluateStep (y :: x :: stack) sign.token =
      (sign.operator.apply x y).map (· :: stack) := by
  unfold evaluateStep
  rw [sign.isOperator]
  simp only [sign.denotes]

/-- A step pushes the value of a number, or puts the result of an operation in the place of its two
operands. -/
theorem evaluateStep_cases {stack stack' : List Float} {t : Token}
    (h : evaluateStep stack t = .ok stack') :
    (t.kind = .number ∧ ∃ x, t.number = .ok x ∧ stack' = x :: stack) ∨
      ∃ (sign : OperatorToken) (left right : Float) (rest : List Float) (x : Float),
        t = sign.token ∧ stack = right :: left :: rest ∧
          sign.operator.apply left right = .ok x ∧ stack' = x :: rest := by
  unfold evaluateStep at h
  cases hk : t.kind with
  | number =>
    simp only [hk] at h
    obtain ⟨x, hx, rfl⟩ := map_eq_ok.1 h
    exact .inl ⟨rfl, x, hx, rfl⟩
  | operator =>
    simp only [hk] at h
    match stack, h with
    | right :: left :: rest, h =>
      cases hop : Operator.ofText? t.text with
      | none => simp [hop] at h
      | some op =>
        simp only [hop] at h
        obtain ⟨x, hx, rfl⟩ := map_eq_ok.1 h
        exact .inr ⟨⟨t, op, hk, hop⟩, left, right, rest, x, rfl, rfl, hx, rfl⟩
  | lparen | rparen | identifier | placeholder => simp [hk] at h

/-- A postfix row pushes the value of its tree, whatever lies on the stack and whatever follows. -/
theorem foldlM_postorder (t : ExprTree) (stack : List Float) (rest : List Token) :
    (t.postorder ++ rest).foldlM evaluateStep stack =
      t.value.bind fun x => rest.foldlM evaluateStep (x :: stack) := by
  induction t generalizing stack rest with
  | leaf number =>
    simp only [ExprTree.postorder, List.singleton_append, List.foldlM_cons, evaluateStep_number]
    cases h : number.token.number <;> simp only [ExprTree.value, h] <;> rfl
  | node left sign right ihl ihr =>
    simp only [ExprTree.postorder, List.append_assoc, ihl, ihr, List.singleton_append,
      List.foldlM_cons, evaluateStep_operator, ExprTree.value]
    cases left.value with
    | error e => rfl
    | ok x =>
      cases right.value with
      | error e => rfl
      | ok y =>
        show ((sign.operator.apply x y).map (· :: stack)).bind (rest.foldlM evaluateStep) =
          (sign.operator.apply x y).bind fun z => rest.foldlM evaluateStep (z :: stack)
        cases sign.operator.apply x y <;> rfl

theorem evaluatePostfix_postorder (t : ExprTree) : evaluatePostfix t.postorder = t.value := by
  have h := foldlM_postorder t [] []
  rw [List.append_nil] at h
  rw [evaluatePostfix, h]
  cases t.value <;> rfl

/-! ### The errors of an evaluation -/

/-- A number token stands for the value that it carries, or else for the one that its text reads
as. -/
theorem number_eq_ok {t : Token} {x : Float} (h : t.number = .ok x) :
    t.value = some x ∨ t.value = none ∧ Decimal.toFloat? t.text = some x := by
  unfold Token.number at h
  split at h
  · rename_i hvalue
    cases h
    exact .inl hvalue
  · rename_i hvalue
    split at h
    · rename_i hread
      cases h
      exact .inr ⟨hvalue, hread⟩
    · cases h

theorem number_eq_error {t : Token} {e : EvalError} (h : t.number = .error e) :
    e = .invalidExpression .literal := by
  unfold Token.number at h
  split at h
  · cases h
  · split at h <;> cases h
    rfl

theorem apply_eq_error {op : Operator} {x y : Float} {e : EvalError}
    (h : op.apply x y = .error e) : op = .div ∧ (y == 0) = true ∧ e = .divisionByZero := by
  cases op <;> simp only [Operator.apply, reduceCtorEq] at h
  split at h
  · rename_i hy
    exact ⟨rfl, hy, (Except.error.inj h).symm⟩
  · cases h

/-- A tree fails only at a literal that is no number or at a division by zero. -/
theorem ExprTree.value_eq_error {t : ExprTree} {e : EvalError} (h : t.value = .error e) :
    e = .invalidExpression .literal ∨ e = .divisionByZero := by
  induction t with
  | leaf number => exact Or.inl (number_eq_error h)
  | node left sign right ihl ihr =>
    rw [ExprTree.value] at h
    obtain hl | ⟨x, -, h⟩ := bind_eq_error.1 h
    · exact ihl hl
    obtain hr | ⟨y, -, h⟩ := bind_eq_error.1 h
    · exact ihr hr
    · exact Or.inr (apply_eq_error h).2.2

end FormulaBook
