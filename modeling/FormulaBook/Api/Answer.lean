import FormulaBook.Api.Route
import FormulaBook.Event.Basic
import FormulaBook.Session.Record

/-!
# Requests and responses

The service that answers requests about the project of a session with JSON.

* `Request`, `Response`: what is asked and what is answered, with the status and body of a response;
* `answer`: the response to a request, and the session that stays.
-/

namespace FormulaBook.Api

/-- A request: its method, the target that it is for, and its body. -/
structure Request where
  method : String
  target : Target
  body : Option Json := none

/-- The response to a request: an answer, a refusal with the reason, the refusal of a request whose
parts have the wrong form, or the report that no answer could be found. -/
inductive Response where
  | found (body : Json)
  | refused (status : Nat) (detail : String)
  | malformed
  | failed (cause : Failure)

namespace Response

/-- The number that says which kind of response it is. -/
def status : Response → Nat
  | .found _ => 200
  | .refused status _ => status
  | .malformed => 422
  | .failed _ => 500

/-- The body of a response. An infinite number, or one that is no number, is absent from it. -/
def body? : Response → Option Json
  | .found body => some body.finite
  | .refused _ detail => some (.object [("detail", .text detail)])
  | .malformed | .failed _ => none

/-- The response that is sent. No body with half of a pair can be. -/
def sent (r : Response) : Response :=
  if r.body?.any (·.holdsHalf) then .failed .halfInText else r

end Response

/-! ### The parts of a request -/

/-- The words for a switch that is on. -/
def onWords : List String := ["1", "on", "t", "true", "y", "yes"]

/-- The words for a switch that is off. -/
def offWords : List String := ["0", "off", "f", "false", "n", "no"]

/-- The switch that a word stands for, in letters of either case. An absent word is off. -/
def switch? : Option String → Option Bool
  | none => some false
  | some s =>
    let word := s.toLower
    if onWords.contains word then some true
    else if offWords.contains word then some false
    else none

/-- A field with a text. -/
def textField? : String × Json → Option (String × String)
  | (name, .text s) => some (name, s)
  | _ => none

/-- The context in the body of a request. -/
def context? : Option Json → Option Context
  | none | some .null => some []
  | some (.object fields) =>
    match fields.lookup "context" with
    | none => some []
    | some (.object entries) => entries.mapM textField?
    | some _ => none
  | some _ => none

/-- The expression in the body of a request. -/
def expression? : Option Json → Option String
  | some (.object fields) =>
    match fields.lookup "text" with
    | some (.text s) => some s
    | _ => none
  | _ => none

/-! ### The answers -/

/-- The response with the outcome of an action, and the session that stays. A failure is reported
with the status that `refusal?` gives for it, or as having no answer. -/
def respond {α : Type} (s : Session) (refusal? : Failure → Option Nat) (encode : α → Json)
    (session : α → Session) (act : Action α) : StateM Workspace (Response × Session) := do
  match ← act.run with
  | .ok x => return (.found (encode x), session x)
  | .error e =>
    match refusal? e with
    | some status => return (.refused status e.message, s)
    | none => return (.failed e, s)

/-- The response of an action that leaves the session as it is and has no refusals. -/
def simply {α : Type} (s : Session) (encode : α → Json) (act : Action α) :
    StateM Workspace (Response × Session) :=
  respond s (fun _ => none) encode (fun _ => s) act

/-- The rows that are asked for: all of them, or those of variables without a value. -/
def rowsJson (errorsOnly : Bool) (rows : List VariableRow) : Json :=
  .list ((if errorsOnly then rows.filter (!·.entry.isOk) else rows).map (·.toJson))

/-- The response for a route. -/
def answerRoute (s : Session) (t : Target) (body : Option Json) :
    Route → StateM Workspace (Response × Session)
  | .project => simply s (·.toJson) (pure s.info)
  | .reload =>
    respond s (fun e => if e.isReported then some 400 else none) (·.info.toJson) id s.reload
  | .variableRows =>
    match switch? (t.field? "errors_only") with
    | some errorsOnly => simply s (rowsJson errorsOnly) s.variableRows
    | none => pure (.malformed, s)
  | .formulaRows => simply s (fun rows => .list (rows.map (·.toJson))) (liftM s.formulaRows)
  | .execute name =>
    match context? body with
    | some context =>
      respond s (fun e => if e.sort == .badKey then some 404 else none) (·.toJson) (fun _ => s)
        (s.execute name context)
    | none => pure (.malformed, s)
  | .evaluate =>
    match expression? body with
    | some text => simply s (fun r => .object (outcomeFields r)) (s.evaluate text)
    | none => pure (.malformed, s)

/-- The response to a request, and the session that stays. -/
def answer (s : Session) (r : Request) : StateM Workspace (Response × Session) :=
  match Route.ofTarget? Route.sendLimit r.target with
  | none => pure (.refused 404 "Not Found", s)
  | some route =>
    if r.method != route.method then pure (.refused 405 "Method Not Allowed", s)
    else do
      let (response, s) ← answerRoute s r.target r.body route
      return (response.sent, s)

end FormulaBook.Api
