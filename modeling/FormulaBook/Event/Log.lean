import FormulaBook.Event.Basic
import FormulaBook.Json.Printer
import FormulaBook.Json.Reader
import FormulaBook.Text.Blank
import FormulaBook.Text.Lines
import FormulaBook.Text.Uppercase
import FormulaBook.Text.Utf8

/-!
# The event log

Events are kept one to a line, and a reader looks only at the end of the log, its window. Lines
that are not JSON are passed over.

* `Event.line`: the octets of an event;
* `window`: the octets that a reader looks at;
* `Log.entries`: the values of the lines in some octets;
* `Log.Query`: what a reader asks for, with `Log.Query.accepts` and `Log.Query.select`;
* `Log.read`: the entries that answer a query, the latest first.
-/

namespace FormulaBook

open Text

/-- The line of an event: its fields in the order of their names. -/
def Event.line (e : Event) : List UInt8 := octets (e.toJson.sorted.render ++ "\n")

namespace Log

/-- The octet that ends a line. -/
def newline : UInt8 := 10

/-- How many octets at the end of a log are looked at if nothing else is said. -/
def defaultWindow : Int := 2 * 1024 * 1024

/-- The most entries that a reader is given. -/
def entryLimit : Int := 2000

/-- The last `size` octets of a log, without the first line if it may have been cut. -/
def window (size : Int) (content : List UInt8) : List UInt8 :=
  let start := (content.length - size).toNat
  if start == 0 then content
  else ((content.drop start).dropWhile (· != newline)).drop 1

/-- Why a log cannot be read: a line holds a number or a nesting that is too large, or an entry has
not the form that a query asks about. -/
inductive ReadError where
  | tooManyDigits (digits : Nat)
  | tooDeep
  | unexpectedForm
  deriving DecidableEq, Repr

/-- The value of a line, if it has one. -/
def entry? (line : List Char) : Except ReadError (Option Json) :=
  if line.all isBlank then .ok none
  else
    match Json.parse line with
    | .ok j => .ok (some j)
    | .error .malformed => .ok none
    | .error (.tooManyDigits digits) => .error (.tooManyDigits digits)
    | .error .tooDeep => .error .tooDeep

/-- The values of the lines in some octets. -/
def entries (content : List UInt8) : Except ReadError (List Json) :=
  ((lines (Utf8.decode content)).mapM entry?).map (·.filterMap id)

/-! ### Queries -/

/-- What a reader asks for. A text that is empty asks for nothing. -/
structure Query where
  level : String := ""
  type : String := ""
  subject : String := ""
  limit : Int := 200

namespace Query

/-- Whether a field of an entry holds a text. -/
def fieldIs (name wanted : String) (j : Json) : Except ReadError Bool :=
  match j with
  | .object fields =>
    match fields.lookup name with
    | some (.text s) => .ok (s == wanted)
    | _ => .ok false
  | _ => .error .unexpectedForm

/-- Whether a text is part of another one. -/
def isPart (part : List Char) : List Char → Bool
  | [] => part.isEmpty
  | c :: rest => part.isPrefixOf (c :: rest) || isPart part rest

/-- The subject of a context that may have any form; a context that counts as absent has none. -/
def subjectOf (context : Json) : Except ReadError (Option String) :=
  if context.isFalsy then .ok none
  else
    match context with
    | .object fields => .ok (contextSubject? fields)
    | .text s =>
      if isPart "formula".toList s.toList || isPart "variable".toList s.toList then
        .error .unexpectedForm
      else .ok none
    | .list items =>
      if items.any fun
        | .text s => s == "formula" || s == "variable"
        | _ => false
      then .error .unexpectedForm
      else .ok none
    | _ => .error .unexpectedForm

/-- Whether an entry is about a subject, which is compared in capital letters. -/
def isAbout (subject : String) (j : Json) : Except ReadError Bool :=
  match j with
  | .object fields =>
    (subjectOf ((fields.lookup "context").getD .null)).map (· == some (upper subject))
  | _ => .error .unexpectedForm

/-- Whether a condition is met, if anything is wanted of it, and then whether the rest is met. What
follows a condition that is not met does not count. -/
def demand (wanted : String) (condition rest : Except ReadError Bool) : Except ReadError Bool :=
  if wanted.isEmpty then rest
  else
    match condition with
    | .ok true => rest
    | .ok false => .ok false
    | .error e => .error e

/-- Whether an entry is asked for: its level, its type and its subject are looked at in order. -/
def accepts (q : Query) (j : Json) : Except ReadError Bool :=
  demand q.level (fieldIs "level" q.level j) <|
    demand q.type (fieldIs "event_type" q.type j) <|
      demand q.subject (isAbout q.subject j) (.ok true)

/-- The entries that are asked for, from the front of a list, after `taken` of them. Whether there
are enough is looked at when one has been taken, so one is given whatever the limit. -/
def selectAfter (q : Query) (taken : Nat) : List Json → Except ReadError (List Json)
  | [] => .ok []
  | j :: rest =>
    match q.accepts j with
    | .error e => .error e
    | .ok false => selectAfter q taken rest
    | .ok true =>
      if min q.limit entryLimit ≤ (taken + 1 : Nat) then .ok [j]
      else (selectAfter q (taken + 1) rest).map (j :: ·)

/-- The entries that are asked for, from the front of a list. -/
def select (q : Query) (entries : List Json) : Except ReadError (List Json) :=
  q.selectAfter 0 entries

end Query

/-- The entries of a log that answer a query, the latest first. -/
def read (size : Int) (q : Query) (content : List UInt8) : Except ReadError (List Json) :=
  (entries (window size content)).bind fun all => q.select all.reverse

end Log

end FormulaBook
