import FormulaBook.Json.Basic
import FormulaBook.Value.Text
import FormulaBook.Decimal.Numeral

/-!
# Events

What happened while variables were resolved and formulas executed. Each type of event has context
keys that it must carry; an event without them is marked before it is written.

* `EventLevel`, `EventType`: how grave an event is and what it reports;
* `Event`: an event, with `Event.subject?`, what it is about;
* `Event.missing`, `Event.checked`: the keys it lacks, and the event marked with them;
* `Event.toJson`, `Event.ofJson?`: the form in which events are kept.
-/

namespace FormulaBook

/-- How grave an event is. -/
inductive EventLevel where
  | info
  | warning
  | error
  deriving DecidableEq, Repr

namespace EventLevel

/-- The name of a level. -/
def name : EventLevel → String
  | .info => "info"
  | .warning => "warning"
  | .error => "error"

/-- All levels. -/
def all : List EventLevel := [.info, .warning, .error]

/-- The level of a name. -/
def ofName? (s : String) : Option EventLevel := all.find? (·.name == s)

end EventLevel

/-- What an event reports. -/
inductive EventType where
  | resolveCompleted
  | variableError
  | formulaExecuted
  | formulaFailed
  | expressionEvaluated
  deriving DecidableEq, Repr

namespace EventType

/-- The name of a type. -/
def name : EventType → String
  | .resolveCompleted => "resolve_completed"
  | .variableError => "variable_error"
  | .formulaExecuted => "formula_executed"
  | .formulaFailed => "formula_failed"
  | .expressionEvaluated => "expression_evaluated"

/-- All types. -/
def all : List EventType :=
  [.resolveCompleted, .variableError, .formulaExecuted, .formulaFailed, .expressionEvaluated]

/-- The type of a name. -/
def ofName? (s : String) : Option EventType := all.find? (·.name == s)

/-- The context keys that an event of a type must carry. -/
def required : EventType → List String
  | .resolveCompleted => ["variable_count", "error_count"]
  | .variableError => ["variable"]
  | .formulaExecuted => ["formula"]
  | .formulaFailed => ["formula", "kind"]
  | .expressionEvaluated => ["expression"]

end EventType

/-- An event. -/
structure Event where
  schemaVersion : Int := 1
  time : String
  level : EventLevel
  type : EventType
  context : List (String × Json) := []
  message : String := ""
  errorCode : Option String := none

/-- The code of an event about a variable that has no value. -/
def resolveErrorCode : String := "variable_resolve_error"

/-- The code of an event about a formula that has no value. -/
def executionErrorCode : String := "formula_exec_error"

/-- What a context is about: its formula, or else its variable. -/
def contextSubject? (context : List (String × Json)) : Option String :=
  ((context.lookup "formula").or (context.lookup "variable")).map (·.toValue.display)

namespace Event

/-- What an event is about. -/
def subject? (e : Event) : Option String := contextSubject? e.context

/-- The required context keys that an event lacks. -/
def missing (e : Event) : List String :=
  e.type.required.filter fun key => (e.context.lookup key).isNone

/-- The context key under which the missing keys are listed. -/
def missingKey : String := "_missing_context"

/-- The event as it is written. One that lacks required keys lists them, and is a warning at
least. -/
def checked (e : Event) : Event :=
  if e.missing.isEmpty then e
  else
    { e with
      context := Json.setField missingKey (.list (e.missing.map .text)) e.context
      level := if e.level == .info then .warning else e.level }

end Event

/-! ### The form in which events are kept -/

namespace Json

mutual

/-- A value in which every double that is not finite is absent. -/
def finite : Json → Json
  | .float x => if x.isFinite then .float x else .null
  | .list items => .list (finiteItems items)
  | .object fields => .object (finiteFields fields)
  | .null => .null
  | .bool b => .bool b
  | .int n => .int n
  | .text s => .text s

/-- The items of a list, each in that form. -/
def finiteItems : List Json → List Json
  | [] => []
  | j :: rest => j.finite :: finiteItems rest

/-- The fields of an object, each in that form. -/
def finiteFields : List (String × Json) → List (String × Json)
  | [] => []
  | (name, j) :: rest => (name, j.finite) :: finiteFields rest

end

mutual

/-- How many values stand inside each other at most: the value itself and what it holds. -/
def depth : Json → Nat
  | .list items => itemsDepth items + 1
  | .object fields => fieldsDepth fields + 1
  | .null | .bool _ | .int _ | .float _ | .text _ => 1

/-- The depth of the deepest item. -/
def itemsDepth : List Json → Nat
  | [] => 0
  | j :: rest => max j.depth (itemsDepth rest)

/-- The depth of the deepest field. -/
def fieldsDepth : List (String × Json) → Nat
  | [] => 0
  | (_, j) :: rest => max j.depth (fieldsDepth rest)

end

/-- A text, or the absence of one. -/
def ofText? (s : Option String) : Json := s.elim .null .text

end Json

namespace Event

/-- How deep the values of a context may be. -/
def depthLimit : Nat := 255

/-- Whether the context of an event is too deep for the event to be kept. -/
def isTooDeep (e : Event) : Bool := depthLimit < Json.fieldsDepth e.context

/-- The text for an event that is too deep. -/
def tooDeepMessage : String := "Maximum serialization depth exceeded"

/-- An event as a JSON object. -/
def toJson (e : Event) : Json :=
  .object
    [("schema_version", .int e.schemaVersion), ("ts", .text e.time), ("level", .text e.level.name),
      ("event_type", .text e.type.name), ("context", (Json.object e.context).finite),
      ("message", .text e.message), ("error_code", .ofText? e.errorCode)]

/-- Whether an event holds a whole number that is too long to be written. -/
def hasLongNumber (e : Event) : Bool := e.toJson.toValue.hasLongNumber

/-- A numeral without the zeros and underscores at its front, after the character `last` of them;
the zero in front of a point stays, and so does the last of zeros only. A minus sign may follow
them. -/
def dropZeros? (last : Char) : List Char → Option (List Char)
  | [] => some [last]
  | c :: rest =>
    if c == '0' || c == '_' then dropZeros? c rest
    else if c == '-' || Text.isDigit c then some (c :: rest)
    else if c == '.' then some (last :: c :: rest)
    else none

/-- A numeral without the zeros at its front, if it begins with a digit. -/
def withoutZeros? : List Char → Option (List Char)
  | '0' :: rest => dropZeros? '0' rest
  | c :: rest => if Text.isDigit c then some (c :: rest) else none
  | [] => none

/-- A numeral without a point that zeros follow, one at least, and nothing else. -/
def withoutFraction (l : List Char) : List Char :=
  match l.dropWhile (· != '.') with
  | _ :: zeros =>
    if !zeros.isEmpty && zeros.all (· == '0') then l.takeWhile (· != '.') else l
  | [] => l

/-- A numeral without underscores, none of which may be at an end or beside another one. -/
def withoutUnderscores? (l : List Char) : Option (List Char) :=
  if (l.splitOn '_').any (·.isEmpty) then none else some (l.filter (· != '_'))

/-- The whole number of a minus sign, which may be absent, and digits, the first of them no zero. -/
def plainInt? (l : List Char) : Option Int :=
  let (negative, digits) := match l with
    | '-' :: rest => (true, rest)
    | _ => (false, l)
  let startsWell := digits.head? != some '0' || digits == ['0']
  if digits.isEmpty || !digits.all Text.isDigit || !startsWell then none
  else if Decimal.digitLimit < digits.length then none
  else
    let n := Decimal.natOfDigits digits
    some (if negative then -n else n)

/-- The whole number that a text stands for: a numeral between blanks, with a sign, zeros in front,
underscores or a point with zeros. -/
def versionNumber? (s : String) : Option Int := do
  let (minus, unsigned) := match Text.trimBy Decimal.isNumeralBlank s.toList with
    | '+' :: rest => ([], rest)
    | '-' :: rest => (['-'], rest)
    | l => ([], l)
  let l ← withoutZeros? unsigned
  plainInt? (minus ++ (← withoutUnderscores? (withoutFraction l)))

/-- The bound that the magnitude of a double for a whole number stays below. -/
def versionBound : Int := Nat.pow 2 63

/-- The whole number that a version field holds: a number without a fraction, a truth value, or
the digits of a number. -/
def version? : Json → Option Int
  | .int n => some n
  | .bool b => some (if b then 1 else 0)
  | .float x => (Decimal.integer? x).filter fun n => n.natAbs < versionBound
  | .text s => versionNumber? s
  | _ => none

/-- A field that holds a text, with the text that is meant where it is absent. -/
def textField? (absent : Option String) (j : Option Json) : Option String :=
  match j with
  | none => absent
  | some (.text s) => some s
  | some _ => none

/-- A field that holds an object. -/
def contextField? : Option Json → Option (List (String × Json))
  | none => some []
  | some (.object fields) => some fields
  | some _ => none

/-- A field that holds a text or nothing. -/
def codeField? : Option Json → Option (Option String)
  | none | some .null => some none
  | some (.text s) => some (some s)
  | some _ => none

/-- The event of a JSON object whose fields have the right types; other fields are ignored. An
event without a time happened `now`. -/
def ofJson? (now : String) (j : Json) : Option Event := do
  let schemaVersion ← version? ((j.field? "schema_version").getD (.int 1))
  let time ← textField? (some now) (j.field? "ts")
  let level ← EventLevel.ofName? (← textField? none (j.field? "level"))
  let type ← EventType.ofName? (← textField? none (j.field? "event_type"))
  let context ← contextField? (j.field? "context")
  let message ← textField? (some "") (j.field? "message")
  let errorCode ← codeField? (j.field? "error_code")
  return { schemaVersion, time, level, type, context, message, errorCode }

end Event

end FormulaBook
