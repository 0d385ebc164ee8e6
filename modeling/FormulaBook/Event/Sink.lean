import FormulaBook.Failure

/-!
# The log of a project

Each project keeps its events in the file `logs/events.ndjson`.

* `Sink`: the log of a directory, with the size of the window that a reader looks at;
* `Sink.write`, `Sink.append`: an event, or any octets, at the end of the log;
* `Sink.read`: the entries that answer a query.
-/

namespace FormulaBook

/-- The log of the project in a directory. -/
structure Sink where
  directory : Path
  window : Int := Log.defaultWindow

namespace Sink

/-- The directory of the log. -/
def logs (s : Sink) : Path := s.directory ++ ["logs"]

/-- The file of the log. -/
def path (s : Sink) : Path := s.logs ++ ["events.ndjson"]

/-- Octets at the end of the log, whose directory is created if it is not there. -/
def append (s : Sink) (octets : List UInt8) (files : Files) : Except FileError Files := do
  (← files.makeDirectory s.logs).append s.path octets

/-- An event at the end of the log. One that is too deep, or that holds a number that is too long,
is refused before anything is written. -/
def write (s : Sink) (e : Event) (files : Files) : Except Failure Files :=
  if e.isTooDeep then .error .eventTooDeep
  else if e.hasLongNumber then .error .eventLongNumber
  else (s.append e.line files).mapError .file

/-- The octets of the log, which are none if there is no log. -/
def content (s : Sink) (files : Files) : Except Failure (List UInt8) :=
  if files.has s.path then (files.read s.path).mapError .file else .ok []

/-- The entries that answer a query, the latest first. -/
def read (s : Sink) (q : Log.Query) (files : Files) : Except Failure (List Json) := do
  (Log.read s.window q (← s.content files)).mapError .log

end Sink

end FormulaBook
