import FormulaBook.Variable
import FormulaBook.Token.Evaluate

/-!
# Resolution

Every variable of a list gets a value or an error. A dynamic variable is computed after the
variables that it refers to; values are kept while the list is resolved, so none is computed twice.
The variables that are being computed are marked, so a cycle is found when its first member is
entered again, and they are held on a stack, which tells the cycle.

* `Definitions`: the definition in force for each name;
* `Search`: a computation on the state of a search, `SearchState`;
* `substitute`, `compute`, `enter`: the search for the value of a variable;
* `Resolution`, `resolve`: the entry of every name.
-/

namespace FormulaBook

open Text

/-! ### Definitions -/

/-- The definitions in force, in the order in which their names first appear. -/
abbrev Definitions := List (String × Variable)

namespace Definitions

/-- The definitions with `v` in force for its name, in the place of an earlier one. -/
def define (defs : Definitions) (v : Variable) : Definitions :=
  match defs with
  | [] => [(v.name, v)]
  | (name, w) :: rest =>
    if name == v.name then (name, v) :: rest else (name, w) :: define rest v

/-- The definitions of a list; of two with one name the last is in force. -/
def ofList (vars : List Variable) : Definitions := vars.foldl define []

/-- The names, each once. -/
def names (defs : Definitions) : List String := defs.map (·.1)

end Definitions

/-! ### The search -/

/-- The values found so far, last first; the names that are marked as being computed; and the stack
of the names that are being computed, innermost first. -/
structure SearchState where
  cache : List (String × Float) := []
  inProgress : List String := []
  stack : List String := []

/-- Why a search has no value: the variable has an error, or the chain of references that leads to
it is too long. -/
inductive SearchFailure where
  | error (e : EvalError)
  | tooDeep
  deriving DecidableEq, Repr

/-- A computation that reads and changes the state, and leaves a state also when it fails. -/
abbrev Search (α : Type) := SearchState → Except SearchFailure α × SearchState

namespace SearchState

/-- The place of `name` on the path of the names that are being computed, outermost first. -/
def place? (s : SearchState) (name : String) : Option Nat := s.stack.reverse.idxOf? name

/-- The path from `name`, which is being computed, to the variable that refers to it again. A name
without a place, which no search asks for, is on no path. -/
def cycle (s : SearchState) (name : String) : List String :=
  s.stack.reverse.drop ((s.place? name).getD s.stack.length) ++ [name]

/-- The state while `name` is computed. -/
def push (s : SearchState) (name : String) : SearchState :=
  { s with inProgress := s.inProgress.insert name, stack := name :: s.stack }

/-- The state when `name` is no longer computed: it is not marked any more, and it is taken from the
stack if it is on top. -/
def pop (s : SearchState) (name : String) : SearchState :=
  { s with
    inProgress := s.inProgress.erase name
    stack := if s.stack.head? == some name then s.stack.tail else s.stack }

/-- The state with the value of `name`. -/
def store (s : SearchState) (name : String) (x : Float) : SearchState :=
  { s with cache := (name, x) :: s.cache }

end SearchState

/-- The tokens of the expression of `user`, with each name replaced by its value, which `enter`
finds. The first token that cannot be replaced decides the error. -/
def substitute (enter : String → Search Float) (defs : Definitions) (user : String) :
    List Token → Search (List Token)
  | [], s => (.ok [], s)
  | t :: rest, s =>
    match t.kind with
    | .placeholder => (.error (.error (.invalidCharacter t.position)), s)
    | .identifier =>
      if (defs.lookup t.text).isNone then
        (.error (.error (.unknownVariable t.text (some user))), s)
      else
        match enter t.text s with
        | (.error e, s) => (.error e, s)
        | (.ok x, s) =>
          match substitute enter defs user rest s with
          | (.error e, s) => (.error e, s)
          | (.ok tokens, s) => (.ok (Token.ofValue x t.position :: tokens), s)
    | _ =>
      match substitute enter defs user rest s with
      | (.error e, s) => (.error e, s)
      | (.ok tokens, s) => (.ok (t :: tokens), s)

/-- The value of a constant: the finite number that its expression reads as. -/
def constantValue (v : Variable) : Except EvalError Float :=
  match Decimal.toFloat? (trim v.expression) with
  | some x => if x.isFinite then .ok x else .error (.invalidConstant v.name)
  | none => .error (.invalidConstant v.name)

/-- The value of a dynamic variable. -/
def dynamicValue (enter : String → Search Float) (defs : Definitions) (v : Variable) :
    Search Float := fun s =>
  match tokenize v.expression with
  | .error e => (.error (.error e), s)
  | .ok tokens =>
    match substitute enter defs v.name tokens s with
    | (.error e, s) => (.error e, s)
    | (.ok tokens, s) => ((evaluateTokens tokens).mapError .error, s)

/-- The value of a variable of a given kind. -/
def compute (enter : String → Search Float) (defs : Definitions) (v : Variable) :
    VariableKind → Search Float
  | .constant, s => ((constantValue v).mapError .error, s)
  | .dynamic, s => dynamicValue enter defs v s

/-- The value of `name`, where at most `depth` more variables may be computed inside each other. -/
def enter (defs : Definitions) (depth : Nat) (name : String) : Search Float := fun s =>
  match s.cache.lookup name with
  | some x => (.ok x, s)
  | none =>
    if name ∈ s.inProgress then (.error (.error (.circularDependency name (s.cycle name))), s)
    else
      match defs.lookup name with
      | none => (.error (.error (.unknownVariable name none)), s)
      | some v =>
        match v.kind.parse with
        | .error cause => (.error (.error (.invalidExpression cause)), s)
        | .ok kind =>
          match depth with
          | 0 => (.error .tooDeep, s)
          | depth + 1 =>
            match compute (enter defs depth) defs v kind (s.push name) with
            | (.ok x, s) => (.ok x, (s.store name x).pop name)
            | (.error e, s) => (.error e, s.pop name)

/-! ### All names -/

/-- What a search recorded for each name, in the order of the definitions. -/
structure Resolution where
  entries : List (String × Except EvalError Float) := []

namespace Resolution

/-- The names that have a value, with their values. -/
def values (r : Resolution) : List (String × Float) :=
  r.entries.filterMap fun (name, entry) => entry.toOption.map (name, ·)

/-- The names that have an error, with their errors. -/
def failures (r : Resolution) : List (String × EvalError) :=
  r.entries.filterMap fun
    | (name, .error e) => some (name, e)
    | (_, .ok _) => none

/-- The names that have an error, with the texts that a person sees. -/
def errors (r : Resolution) : List (String × String) :=
  r.failures.map fun (name, e) => (name, e.message)

end Resolution

/-- The entry of a name that is entered from outside. A chain that is too long is charged to the
name at its beginning. -/
def entry (name : String) : Except SearchFailure Float → Except EvalError Float
  | .ok x => .ok x
  | .error (.error e) => .error e
  | .error .tooDeep => .error (.invalidExpression (.depth name))

/-- The entries of some names, one after the other, in one search. -/
def resolveNames (defs : Definitions) (depth : Nat) :
    List String → SearchState → List (String × Except EvalError Float)
  | [], _ => []
  | name :: rest, s =>
    match enter defs depth name s with
    | (outcome, s) => (name, entry name outcome) :: resolveNames defs depth rest s

/-- How many variables may be computed inside each other. -/
def chainLimit : Nat := 490

/-- The entry of every name of a list, with chains of references up to a length. -/
def resolveWithin (depth : Nat) (vars : List Variable) : Resolution :=
  let defs := Definitions.ofList vars
  ⟨resolveNames defs depth defs.names {}⟩

/-- The entry of every name of a list. -/
def resolve (vars : List Variable) : Resolution := resolveWithin chainLimit vars

end FormulaBook
