import FormulaBook.Variable
import FormulaBook.Formula

/-!
# Validation of definitions

Definitions are checked before they are used: the form of the name, the characters of the
expression, and that no earlier definition has the name.

* `DefinitionProblem`: what is wrong with a definition, with its text;
* `Variable.problem?`, `Formula.problem?`: the first problem of a definition;
* `problemsAfter`, with `variableProblems` and `formulaProblems`: the problems of a whole list, one
  line for each invalid definition.
-/

namespace FormulaBook

open Text

/-- What is defined. -/
inductive DefinitionSort where
  | variable
  | formula
  deriving DecidableEq, Repr

/-- The word for what is defined. -/
def DefinitionSort.label : DefinitionSort → String
  | .variable => "Variable"
  | .formula => "Formula"

/-- What is wrong with a definition. -/
inductive DefinitionProblem where
  | nameMissing
  | nameMalformed
  | expressionMissing
  | expressionMalformed
  | nameTaken
  deriving DecidableEq, Repr

/-- The text that a person sees. -/
def DefinitionProblem.message (what : DefinitionSort) : DefinitionProblem → String
  | .nameMissing => what.label ++ " name is required."
  | .nameMalformed =>
    what.label ++ " name must start with a letter and contain only A-Z, 0-9, and underscore."
  | .expressionMissing =>
    match what with
    | .variable => "Expression / value is required."
    | .formula => "Expression is required."
  | .expressionMalformed => "Expression contains invalid characters."
  | .nameTaken => what.label ++ " name already exists."

/-- A capital letter, and after it capital letters, digits and underscores. -/
def isNameChars : List Char → Bool
  | [] => false
  | c :: rest => isNameStart c && rest.all isNameChar

/-- Whether a text is a name; one line feed at its end is not looked at. -/
def isName (s : String) : Bool :=
  isNameChars s.toList || (s.toList.getLast? == some '\n' && isNameChars s.toList.dropLast)

/-- The characters of a constant. -/
def isConstantChar (c : Char) : Bool := isNumberChar c || isBlank c

/-- The characters of the expression of a dynamic variable. -/
def isDynamicChar (c : Char) : Bool :=
  isNameChar c || isOperatorChar c || c == '(' || c == ')' || c == '.' || isBlank c

/-- The characters of the expression of a formula. -/
def isFormulaChar (c : Char) : Bool :=
  isDynamicChar c || ('a' ≤ c && c ≤ 'z') || c == '{' || c == '}' || c == '#'

/-- The first problem of a definition with the given name and expression, where `allowed` are the
characters of the expression and `taken` the names that are in use. -/
def definitionProblem? (allowed : Char → Bool) (taken : List String) (name expression : String) :
    Option DefinitionProblem :=
  let chars := trimBy isBlank expression.toList
  if name.isEmpty then some .nameMissing
  else if !isName name then some .nameMalformed
  else if chars.isEmpty then some .expressionMissing
  else if !chars.all allowed then some .expressionMalformed
  else if taken.contains name then some .nameTaken
  else none

/-- The first problem of the definition of a variable. Only the constant kind itself asks for the
characters of a constant; a text that names it, and is not read yet, does not. -/
def Variable.problem? (taken : List String) (v : Variable) : Option DefinitionProblem :=
  definitionProblem? (if v.kind == .known .constant then isConstantChar else isDynamicChar) taken
    v.name v.expression

/-- The first problem of the definition of a formula. -/
def Formula.problem? (taken : List String) (f : Formula) : Option DefinitionProblem :=
  definitionProblem? isFormulaChar taken f.name f.expression

/-- The line for an invalid definition. -/
def problemLine (what : DefinitionSort) (name : String) (p : DefinitionProblem) : String :=
  (if name.isEmpty then "<unnamed>" else name) ++ ": " ++ p.message what

/-- The lines for the definitions of a list that are invalid, where `check` finds the first problem
of one behind given names, and the names `taken` come before. -/
def problemsAfter {α : Type} (what : DefinitionSort) (name : α → String)
    (check : List String → α → Option DefinitionProblem) (taken : List String) :
    List α → List String
  | [] => []
  | a :: rest =>
    (check taken a).toList.map (problemLine what (name a)) ++
      problemsAfter what name check (name a :: taken) rest

/-- The lines for the variables of a list that are invalid, where the names `taken` come before. -/
def variableProblemsAfter (taken : List String) (vars : List Variable) : List String :=
  problemsAfter .variable (·.name) Variable.problem? taken vars

/-- The lines for the variables of a list that are invalid. -/
def variableProblems (vars : List Variable) : List String := variableProblemsAfter [] vars

/-- The lines for the formulas of a list that are invalid, where the names `taken` come before. -/
def formulaProblemsAfter (taken : List String) (formulas : List Formula) : List String :=
  problemsAfter .formula (·.name) Formula.problem? taken formulas

/-- The lines for the formulas of a list that are invalid. -/
def formulaProblems (formulas : List Formula) : List String := formulaProblemsAfter [] formulas

end FormulaBook
