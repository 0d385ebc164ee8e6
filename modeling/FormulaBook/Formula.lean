import FormulaBook.Token.Evaluate

/-!
# Formulas

A formula is an expression over variables and placeholders. Placeholders are bound to texts when
the formula is executed; names stand for values that have been resolved.

* `Formula`: a named formula;
* `contextNames`: the placeholders that an expression asks for;
* `bindContext`, `bindVariables`: tokens in place of placeholders and of names;
* `execute`: the value of an expression.
-/

namespace FormulaBook

open Text

/-- A named formula. -/
structure Formula where
  name : String
  expression : String
  deriving DecidableEq, Repr

/-- The names of the placeholders in an expression, each once, from left to right. -/
def contextNames (expression : String) : List String :=
  (placeholderNames expression.toList).eraseDups

/-- The texts that placeholders are bound to. -/
abbrev Context := List (String × String)

/-- The literal that a placeholder is bound to: digits and points between blanks. -/
def bindPlaceholder (context : Context) (t : Token) : Except EvalError Token :=
  let name := t.placeholderName
  let raw := trim ((context.lookup name).getD "")
  if raw.isEmpty then .error (.missingContextValue name)
  else if raw.toList.all isNumberChar then
    .ok { kind := .number, text := raw, position := t.position }
  else .error (.invalidContextValue name raw)

/-- Tokens with a literal in the place of each placeholder. -/
def bindContext (context : Context) (tokens : List Token) : Except EvalError (List Token) :=
  tokens.mapM fun t => if t.kind == .placeholder then bindPlaceholder context t else .ok t

/-- The number token for a name. -/
def bindName (values : List (String × Float)) (errors : List (String × String)) (t : Token) :
    Except EvalError Token :=
  match errors.lookup t.text, values.lookup t.text with
  | some message, _ => .error (.variableHasError t.text message)
  | none, none => .error (.unknownVariable t.text none)
  | none, some x => .ok (.ofValue x t.position)

/-- Tokens with a number in the place of each name. -/
def bindVariables (values : List (String × Float)) (errors : List (String × String))
    (tokens : List Token) : Except EvalError (List Token) :=
  tokens.mapM fun t => if t.kind == .identifier then bindName values errors t else .ok t

/-- The value of an expression: placeholders are bound first, then names. -/
def execute (expression : String) (context : Context) (values : List (String × Float))
    (errors : List (String × String)) : Except EvalError Float := do
  let tokens ← tokenize expression
  let tokens ← bindContext context tokens
  let tokens ← bindVariables values errors tokens
  evaluateTokens tokens

end FormulaBook
