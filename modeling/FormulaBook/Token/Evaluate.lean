import FormulaBook.Token.Lexer
import FormulaBook.Token.Postfix
import FormulaBook.Decimal.Numeral

/-!
# The value of an expression

Tokens in postfix order are evaluated on a stack of numbers; an expression is put into postfix
order first.

* `Token.number`: the value of a number token;
* `evaluateStep`, `evaluatePostfix`: evaluation in postfix order;
* `evaluateTokens`: evaluation of a row of tokens;
* `evaluate`: evaluation of a text without names.
-/

namespace FormulaBook

open Text

/-- The value of a number token: the one it carries, or the one its text reads as. -/
def Token.number (t : Token) : Except EvalError Float :=
  match t.value with
  | some x => .ok x
  | none =>
    match Decimal.toFloat? t.text with
    | some x => .ok x
    | none => .error (.invalidExpression .literal)

/-- The effect of a token on the stack of numbers, whose top comes first. -/
def evaluateStep (stack : List Float) (t : Token) : Except EvalError (List Float) :=
  match t.kind with
  | .number => t.number.map (· :: stack)
  | .operator =>
    match stack with
    | right :: left :: rest =>
      match Operator.ofText? t.text with
      | some op => (op.apply left right).map (· :: rest)
      | none => .error (.invalidExpression (.operator t.text))
    | _ => .error (.invalidExpression .operands)
  | _ => .error (.invalidCharacter t.position)

/-- The one value that a finished stack must hold. -/
def theValue : List Float → Except EvalError Float
  | [x] => .ok x
  | _ => .error (.invalidExpression .operands)

/-- The value of tokens in postfix order. -/
def evaluatePostfix (tokens : List Token) : Except EvalError Float :=
  (tokens.foldlM evaluateStep []).bind theValue

/-- The value of a row of tokens, in which names and placeholders have been replaced. -/
def evaluateTokens (tokens : List Token) : Except EvalError Float :=
  (toPostfix (mergeLiterals tokens)).bind evaluatePostfix

/-! ### Texts without names -/

/-- The characters of a text without names, besides blanks. -/
def isArithmeticChar (c : Char) : Bool :=
  isNumberChar c || isOperatorChar c || c == '(' || c == ')'

/-- The value of a text without names. Blanks are removed first, and the position of a character
that has no place there is counted without them. -/
def evaluate (text : String) : Except EvalError Float :=
  let chars := text.toList.filter (!isBlank ·)
  match chars.findIdx? (!isArithmeticChar ·) with
  | some i => .error (.invalidCharacter (some i))
  | none => (tokenize (String.ofList chars)).bind evaluateTokens

end FormulaBook
