import FormulaBook.Text.Quoted

/-!
# Evaluation errors

What can go wrong when an expression is read, when variables are resolved and when a formula is
executed. An error is its cause; the text that a person sees is computed from it.

* `ErrorKind`: the causes as a program tells them apart, with `ErrorKind.name`;
* `Malformation`: the ways in which an expression is invalid;
* `EvalError`: a cause with what it concerns, with `EvalError.kind` and `EvalError.message`.
-/

namespace FormulaBook

/-- The kinds of evaluation error. -/
inductive ErrorKind where
  | invalidCharacter
  | mismatchedParentheses
  | invalidExpression
  | divisionByZero
  | invalidConstant
  | unknownVariable
  | circularDependency
  | missingContextValue
  | invalidContextValue
  | variableHasError
  | unrankedOperator
  deriving DecidableEq, Repr

/-- The name under which a kind is reported. -/
def ErrorKind.name : ErrorKind → String
  | .invalidCharacter => "InvalidCharacter"
  | .mismatchedParentheses => "MismatchedParentheses"
  | .invalidExpression => "InvalidExpression"
  | .divisionByZero => "DivisionByZero"
  | .invalidConstant => "InvalidConstant"
  | .unknownVariable => "UnknownVariable"
  | .circularDependency => "CircularDependency"
  | .missingContextValue => "MissingContextValue"
  | .invalidContextValue => "InvalidContextValue"
  | .variableHasError => "VariableHasError"
  | .unrankedOperator => "UnrankedOperator"

/-- What makes an expression invalid. -/
inductive Malformation where
  /-- An operator lacks an operand, or there is not exactly one value. -/
  | operands
  /-- A literal number does not read as a number. -/
  | literal
  /-- An operator is none of the four. -/
  | operator (symbol : String)
  /-- The kind of a variable is neither of the two; `shown` is its quoted form. -/
  | kind (shown : String)
  /-- The chain of references that begins at a variable is too long to follow. -/
  | depth (name : String)
  /-- A cause given in words. -/
  | other (words : String)
  deriving DecidableEq, Repr

/-- The text for a kind of variable, quoted as `shown`, that is neither of the two. -/
def unknownKindMessage (shown : String) : String :=
  "Unknown variable kind " ++ shown ++ ". Expected one of: constant, dynamic"

/-- The text that a person sees. -/
def Malformation.message : Malformation → String
  | .operands => "Invalid expression."
  | .literal => "Invalid token."
  | .operator symbol => "Unknown operator: " ++ Text.quote symbol
  | .kind shown => unknownKindMessage shown
  | .depth name => "Dependency chain of \"" ++ name ++ "\" is too deep."
  | .other words => words

/-- A failed evaluation. -/
inductive EvalError where
  /-- A character that begins no token, or two words that touch, at a position of the text. -/
  | invalidCharacter (position : Option Int)
  | mismatchedParentheses
  | invalidExpression (cause : Malformation)
  | divisionByZero
  /-- The expression of the constant `name` is not a finite number. -/
  | invalidConstant (name : String)
  /-- A reference to `name`, which no variable has, by a variable or by a formula. -/
  | unknownVariable (name : String) (referencedBy : Option String)
  /-- The variable `name` is entered again along `path`, whose ends are equal. -/
  | circularDependency (name : String) (path : List String)
  | missingContextValue (name : String)
  | invalidContextValue (name value : String)
  /-- A formula refers to a variable that failed with the message `underlying`. -/
  | variableHasError (name underlying : String)
  /-- An operator token that has no rank; no text has such a token. -/
  | unrankedOperator (symbol : String)
  deriving DecidableEq, Repr

namespace EvalError

/-- A circular dependency; where no path is known, the variable leads to itself. -/
def circular (name : String) (path : List String) : EvalError :=
  .circularDependency name (if path.isEmpty then [name, name] else path)

/-- The kind of an error. -/
def kind : EvalError → ErrorKind
  | .invalidCharacter _ => .invalidCharacter
  | .mismatchedParentheses => .mismatchedParentheses
  | .invalidExpression _ => .invalidExpression
  | .divisionByZero => .divisionByZero
  | .invalidConstant _ => .invalidConstant
  | .unknownVariable _ _ => .unknownVariable
  | .circularDependency _ _ => .circularDependency
  | .missingContextValue _ => .missingContextValue
  | .invalidContextValue _ _ => .invalidContextValue
  | .variableHasError _ _ => .variableHasError
  | .unrankedOperator _ => .unrankedOperator

/-- The text that a person sees. -/
def message : EvalError → String
  | .invalidCharacter _ => "Expression contains invalid characters."
  | .mismatchedParentheses => "Mismatched parentheses."
  | .invalidExpression cause => cause.message
  | .divisionByZero => "Division by zero."
  | .invalidConstant name => "Invalid constant value for \"" ++ name ++ "\". Expected numeric."
  | .unknownVariable name none => "Unknown variable \"" ++ name ++ "\" in formula."
  | .unknownVariable name (some user) =>
    "Unknown variable \"" ++ name ++ "\" in expression of \"" ++ user ++ "\"."
  | .circularDependency name path =>
    "Circular dependency detected at \"" ++ name ++ "\" (" ++ " -> ".intercalate path ++ ")."
  | .missingContextValue name => "Context value for \"" ++ name ++ "\" is required."
  | .invalidContextValue name _ => "Context value for \"" ++ name ++ "\" must be numeric."
  | .variableHasError name underlying => "Variable \"" ++ name ++ "\" has error: " ++ underlying
  | .unrankedOperator symbol => symbol

end EvalError

end FormulaBook
