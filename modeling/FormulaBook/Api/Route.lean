import FormulaBook.Api.Target

/-!
# Routes

The paths under which requests are answered.

* `Route`: what a path asks for;
* `Route.method`: the method with which it is asked;
* `Route.ofPath?`, `Route.ofTarget?`: the route of a path, and of a target that may be sent on.
-/

namespace FormulaBook.Api

/-- What a path asks for. -/
inductive Route where
  | project
  | reload
  | variableRows
  | formulaRows
  | execute (name : String)
  | evaluate
  deriving DecidableEq, Repr

namespace Route

/-- The method with which a route is asked for. -/
def method : Route → String
  | .project | .variableRows | .formulaRows => "GET"
  | .reload | .execute _ | .evaluate => "POST"

/-- The route of a path, given by its parts. -/
def ofParts? : List String → Option Route
  | ["", "api", "project"] => some .project
  | ["", "api", "reload"] => some .reload
  | ["", "api", "variables"] => some .variableRows
  | ["", "api", "formulas"] => some .formulaRows
  | ["", "api", "formulas", name, "execute"] => if name.isEmpty then none else some (.execute name)
  | ["", "api", "evaluate"] => some .evaluate
  | _ => none

/-- The characters without the last one, if that is a line feed. -/
def dropLineFeed (cs : List Char) : List Char :=
  if cs.getLast? == some '\n' then cs.dropLast else cs

/-- The route of a path. One line feed at its end does not count. -/
def ofPath? (path : String) : Option Route :=
  ofParts? ((String.ofList (dropLineFeed path.toList)).splitOn "/")

/-- The path without the slashes at its end, if it ends with one and what stands before them has a
route. -/
def shorterPath? (path : String) : Option String :=
  let shorter := String.ofList (path.toList.reverse.dropWhile (· == '/')).reverse
  if shorter != path && (ofPath? shorter).isSome then some shorter else none

/-- The route of a target. A request whose path ends with slashes that no route has is sent on
without them, at most `times` times. -/
def ofTarget? (times : Nat) (t : Target) : Option Route :=
  match ofPath? t.path with
  | some route => some route
  | none =>
    match times with
    | 0 => none
    | times + 1 => (shorterPath? t.path).bind fun path => ofTarget? times (t.sentOn path)

/-- How many times a request is sent on. -/
def sendLimit : Nat := 20

end Route

end FormulaBook.Api
