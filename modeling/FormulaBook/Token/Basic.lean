import FormulaBook.EvalError
import FormulaBook.Decimal.Shortest

/-!
# Tokens

An expression is a row of tokens: numbers, the four operators, parentheses, names of variables and
placeholders for values that are given when a formula is executed.

* `Operator`: the four operators, with their rank and their effect;
* `Token`: a kind, a text, and for a number whose value is already known that value;
* `Token.ofValue`: the number token of a value;
* `mergeLiterals`: neighbouring literal numbers joined into one.
-/

namespace FormulaBook

/-- The operators of an expression; all of them group to the left. -/
inductive Operator where
  | add
  | sub
  | mul
  | div
  deriving DecidableEq, Repr

namespace Operator

/-- The operator that a text denotes. -/
def ofText? : String → Option Operator
  | "+" => some .add
  | "-" => some .sub
  | "*" => some .mul
  | "/" => some .div
  | _ => none

/-- An operator of higher rank binds tighter. -/
def rank : Operator → Nat
  | .add | .sub => 1
  | .mul | .div => 2

/-- The value of an operation. A divisor must not be zero, of either sign. -/
def apply : Operator → Float → Float → Except EvalError Float
  | .add, x, y => .ok (x + y)
  | .sub, x, y => .ok (x - y)
  | .mul, x, y => .ok (x * y)
  | .div, x, y => if y == 0 then .error .divisionByZero else .ok (x / y)

end Operator

/-- The kinds of token. -/
inductive TokenKind where
  | number
  | operator
  | lparen
  | rparen
  | identifier
  | placeholder
  deriving DecidableEq, Repr

/-- Whether two tokens of a kind, or one of each, may not touch: `2A` is not two tokens. -/
def TokenKind.isWord : TokenKind → Bool
  | .number | .identifier => true
  | _ => false

/-- A token of an expression. A number token has a `value` if it stands for a value that is
already known; without one it is a literal, and its text is read when it is evaluated. -/
structure Token where
  kind : TokenKind
  text : String
  value : Option Float := none
  position : Option Int := none

namespace Token

/-- The number token of a known value. -/
def ofValue (x : Float) (position : Option Int := none) : Token :=
  { kind := .number, text := Decimal.shortest x, value := some x, position }

/-- The name in a placeholder, without the three characters before it and the two after it. -/
def placeholderName (t : Token) : String :=
  String.ofList ((t.text.toList.drop 3).take (t.text.length - 5))

/-- Whether a token is a number whose text is still to be read. -/
def isLiteral (t : Token) : Bool := t.kind == .number && t.value.isNone

/-- A literal with the text of another one after its own. -/
def join (a b : Token) : Token := { a with text := a.text ++ b.text }

/-- The tokens after `a`, with `a` joined to the literals that follow it directly. -/
def mergeAfter (a : Token) : List Token → List Token
  | [] => [a]
  | b :: rest =>
    if a.isLiteral && b.isLiteral then mergeAfter (a.join b) rest else a :: mergeAfter b rest

end Token

/-- A row of tokens in which each run of literals is one literal: blanks have no meaning, so `1 2`
is `12`, and so is a bound `1` before a `2`. -/
def mergeLiterals : List Token → List Token
  | [] => []
  | a :: rest => a.mergeAfter rest

@[simp] theorem mergeLiterals_nil : mergeLiterals [] = [] := rfl

end FormulaBook
