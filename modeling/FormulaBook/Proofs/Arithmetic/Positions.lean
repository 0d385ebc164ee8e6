import FormulaBook.Proofs.Outcome
import FormulaBook.Token.Evaluate

/-!
# Expressions without positions

The positions of tokens are told in errors, and nothing else depends on them: a row of tokens comes
to the same outcome wherever its tokens have stood, and an error has the same kind and message.

* `Token.unplaced`, `EvalError.unplaced`, `Yard.unplaced`: tokens, errors and states without
  positions;
* `EvalError.told`: the kind and the message of an error;
* `mergeLiterals_unplaced`, `toPostfix_unplaced`, `evaluatePostfix_unplaced`: what is done with a row
  of tokens without positions;
* `evaluateTokens_unplaced`: the outcome of a row without positions.
-/

namespace FormulaBook

/-- A token at no position. -/
def Token.unplaced (t : Token) : Token := { t with position := none }

@[simp] theorem Token.kind_unplaced (t : Token) : t.unplaced.kind = t.kind := rfl

@[simp] theorem Token.text_unplaced (t : Token) : t.unplaced.text = t.text := rfl

@[simp] theorem Token.isLiteral_unplaced (t : Token) : t.unplaced.isLiteral = t.isLiteral := rfl

/-- An error at no position. -/
def EvalError.unplaced : EvalError → EvalError
  | .invalidCharacter _ => .invalidCharacter none
  | e => e

@[simp] theorem EvalError.kind_unplaced (e : EvalError) : e.unplaced.kind = e.kind := by
  cases e <;> rfl

@[simp] theorem EvalError.message_unplaced (e : EvalError) : e.unplaced.message = e.message := by
  cases e <;> rfl

/-- What an error tells besides a position: its kind and its message. -/
def EvalError.told (e : EvalError) : ErrorKind × String := (e.kind, e.message)

@[simp] theorem EvalError.told_unplaced (e : EvalError) : e.unplaced.told = e.told := by
  simp [EvalError.told]

theorem mergeAfter_unplaced (a : Token) (l : List Token) :
    a.unplaced.mergeAfter (l.map .unplaced) = (a.mergeAfter l).map .unplaced := by
  induction l generalizing a with
  | nil => rfl
  | cons b l ih =>
    rw [List.map_cons, Token.mergeAfter, Token.mergeAfter, Token.isLiteral_unplaced,
      Token.isLiteral_unplaced]
    split
    · exact ih (a.join b)
    · rw [ih b, List.map_cons]

theorem mergeLiterals_unplaced (l : List Token) :
    mergeLiterals (l.map .unplaced) = (mergeLiterals l).map .unplaced := by
  cases l with
  | nil => rfl
  | cons a l => exact mergeAfter_unplaced a l

/-! ### Postfix order -/

namespace Yard

/-- A state between tokens at no positions. -/
def unplaced (y : Yard) : Yard := ⟨y.output.map .unplaced, y.waiting.map .unplaced⟩

theorem release_unplaced {p : Token → Bool} (hp : ∀ t : Token, p t.unplaced = p t) (y : Yard) :
    y.unplaced.release p = (y.release p).unplaced := by
  have hcomp : p ∘ Token.unplaced = p := funext hp
  simp [release, unplaced, List.takeWhile_map, List.dropWhile_map, hcomp]

theorem step_unplaced (y : Yard) (t : Token) :
    Translates EvalError.unplaced unplaced (y.step t) (y.unplaced.step t.unplaced) := by
  unfold step
  rw [Token.kind_unplaced]
  cases t.kind with
  | number | lparen => exact .ok _
  | identifier | placeholder => exact .error _
  | operator =>
    rw [Token.text_unplaced]
    cases Operator.ofText? t.text with
    | none => exact .error _
    | some op =>
      have hrelease : y.unplaced.release (yields op.rank) =
          (y.release (yields op.rank)).unplaced := release_unplaced (fun _ => rfl) y
      simp only [hrelease]
      exact .ok _
  | rparen =>
    have hrelease : y.unplaced.release (·.kind != .lparen) =
        (y.release (·.kind != .lparen)).unplaced := release_unplaced (fun _ => rfl) y
    simp only [hrelease]
    cases h : (y.release (·.kind != .lparen)).waiting with
    | nil =>
      simp only [unplaced, h, List.map_nil]
      exact .error _
    | cons open' waiting =>
      simp only [unplaced, h, List.map_cons]
      exact .ok _

theorem finish_unplaced (y : Yard) :
    Translates EvalError.unplaced (·.map .unplaced) y.finish y.unplaced.finish := by
  unfold finish
  have hopen : y.unplaced.waiting.any (·.kind == .lparen) = y.waiting.any (·.kind == .lparen) := by
    simp [unplaced, List.any_map, Function.comp_def]
  rw [hopen]
  split
  · exact .error _
  · have hrow : y.unplaced.output.reverse ++ y.unplaced.waiting =
        (y.output.reverse ++ y.waiting).map .unplaced := by
      simp [unplaced]
    rw [hrow]
    exact .ok _

end Yard

theorem toPostfix_unplaced (l : List Token) :
    Translates EvalError.unplaced (·.map .unplaced) (toPostfix l) (toPostfix (l.map .unplaced)) :=
  (Translates.foldlM Yard.step_unplaced l {}).bind Yard.finish_unplaced

/-! ### Evaluation -/

theorem number_unplaced (t : Token) :
    Translates EvalError.unplaced id t.number t.unplaced.number := by
  unfold Token.number Token.unplaced
  cases t.value with
  | some x => exact .ok x
  | none =>
    cases Decimal.toFloat? t.text with
    | some x => exact .ok x
    | none => exact .error (EvalError.invalidExpression .literal)

theorem apply_unplaced (op : Operator) (x y : Float) :
    Translates EvalError.unplaced id (op.apply x y) (op.apply x y) := by
  cases op with
  | add | sub | mul => exact .ok _
  | div =>
    rw [Operator.apply]
    split
    · exact .error EvalError.divisionByZero
    · exact .ok (x / y)

theorem evaluateStep_unplaced (stack : List Float) (t : Token) :
    Translates EvalError.unplaced id (evaluateStep stack t) (evaluateStep stack t.unplaced) := by
  unfold evaluateStep
  rw [Token.kind_unplaced]
  cases t.kind with
  | number => exact (number_unplaced t).map fun _ => rfl
  | lparen | rparen | identifier | placeholder => exact .error _
  | operator =>
    rw [Token.text_unplaced]
    match stack with
    | [] | [_] => exact .error (EvalError.invalidExpression .operands)
    | right :: left :: rest =>
      cases Operator.ofText? t.text with
      | none => exact .error (EvalError.invalidExpression (.operator t.text))
      | some op => exact (apply_unplaced op left right).map fun _ => rfl

theorem theValue_unplaced (stack : List Float) :
    Translates EvalError.unplaced id (theValue stack) (theValue stack) := by
  unfold theValue
  split
  · exact .ok _
  · exact .error (EvalError.invalidExpression .operands)

theorem evaluatePostfix_unplaced (l : List Token) :
    Translates EvalError.unplaced id (evaluatePostfix l) (evaluatePostfix (l.map .unplaced)) :=
  (Translates.foldlM evaluateStep_unplaced l []).bind theValue_unplaced

/-- The outcome of a row of tokens does not depend on their positions, but for the position that an
error tells. -/
theorem evaluateTokens_unplaced (l : List Token) :
    Translates EvalError.unplaced id (evaluateTokens l) (evaluateTokens (l.map .unplaced)) := by
  rw [evaluateTokens, evaluateTokens, mergeLiterals_unplaced]
  exact (toPostfix_unplaced (mergeLiterals l)).bind evaluatePostfix_unplaced

end FormulaBook
