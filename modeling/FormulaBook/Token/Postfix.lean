import FormulaBook.Token.Basic

/-!
# Postfix order

A row of tokens is put into postfix order, in which each operator follows its operands and
parentheses are not needed. Operators wait on a stack until one that binds no tighter follows.

* `Yard`: the output so far, last token first, and the waiting operators and open parentheses,
  innermost first;
* `Yard.step`: the effect of one token;
* `toPostfix`: the row in postfix order.
-/

namespace FormulaBook

/-- The state between two tokens. -/
structure Yard where
  output : List Token := []
  waiting : List Token := []

namespace Yard

/-- Whether a waiting token is an operator of at least the given rank. -/
def yields (rank : Nat) (t : Token) : Bool :=
  t.kind == .operator && (Operator.ofText? t.text).any (rank ≤ ·.rank)

/-- Waiting tokens are moved to the output, innermost first, while `p` holds. -/
def release (p : Token → Bool) (y : Yard) : Yard :=
  ⟨(y.waiting.takeWhile p).reverse ++ y.output, y.waiting.dropWhile p⟩

/-- The effect of one token. -/
def step (y : Yard) (t : Token) : Except EvalError Yard :=
  match t.kind with
  | .number => .ok { y with output := t :: y.output }
  | .operator =>
    match Operator.ofText? t.text with
    | none => .error (.unrankedOperator t.text)
    | some op =>
      let y := y.release (yields op.rank)
      .ok { y with waiting := t :: y.waiting }
  | .lparen => .ok { y with waiting := t :: y.waiting }
  | .rparen =>
    let y := y.release (·.kind != .lparen)
    match y.waiting with
    | [] => .error .mismatchedParentheses
    | _ :: waiting => .ok { y with waiting }
  | .identifier | .placeholder => .error (.invalidCharacter t.position)

/-- The whole output, once all tokens are read and no parenthesis is open. -/
def finish (y : Yard) : Except EvalError (List Token) :=
  if y.waiting.any (·.kind == .lparen) then .error .mismatchedParentheses
  else .ok (y.output.reverse ++ y.waiting)

end Yard

/-- The tokens of an expression in postfix order. -/
def toPostfix (tokens : List Token) : Except EvalError (List Token) :=
  (tokens.foldlM Yard.step {}).bind Yard.finish

end FormulaBook
