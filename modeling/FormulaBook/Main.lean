import FormulaBook.Api.Answer
import FormulaBook.Calendar
import FormulaBook.CommandLine.Run
import Std.Time.DateTime.PlainDateTime
import Std.Time.Zoned.TimeZone

/-!
# The program

The command line on real files. The files of the project are read, the command is run, and what it
changed is written back. A project that is served answers requests from standard input, one a
line: a method, a target and perhaps a body.
-/

namespace FormulaBook.Main

open CommandLine

/-- The time at which the program runs. -/
def currentTime : IO String := do
  let wall := (← Std.Time.Timestamp.now).toWallTime Std.Time.TimeZone.Offset.zero
  let t := Std.Time.PlainDateTime.ofWallTime wall
  let moment : Moment :=
    { date := ⟨t.year.toInt.toNat, t.month.val.toNat, t.day.val.toNat⟩
      hour := t.hour.val.toNat, minute := t.minute.val.toNat, second := t.second.val.toNat
      microsecond := t.nanosecond.val.toNat / 1000 }
  return moment.stamp

/-- A text as it is read from the system. -/
def received (s : String) : String := Text.ofChars s.toList

/-- A text as it is handed to the system. -/
def handed (s : String) : String := String.ofList (Text.chars s)

/-- What stands at a path whose directory is there. -/
def entryAt? (path : Path) : IO (Option FileEntry) := do
  try
    return some (.file (← IO.FS.readBinFile (handed path.text)).toList)
  catch
    | .inappropriateType .. => return some .directory
    | _ => return none

/-- The files with what stands at a path and at every path on the way to it. -/
def readPath (files : Files) (path : Path) : IO Files := do
  let mut files := files
  for n in List.range path.length do
    let part := path.take (n + 1)
    match ← entryAt? part with
    | some entry => files := files.set part entry
    | none => return files
  return files

/-- The files of the project in a directory. -/
def readProject (directory : Path) : IO Files := do
  let sink : Sink := { directory }
  let mut files : Files := {}
  for path in [directory, Workbook.path directory, Config.path directory, sink.path] do
    files ← readPath files path
  return files

/-- Writes what has changed at a path. What is only longer than before is written at the end. -/
def writeEntry (before : Files) (path : Path) : FileEntry → IO Unit
  | .directory => IO.FS.createDirAll (handed path.text)
  | .file octets => do
    let bytes (octets : List UInt8) : ByteArray := ⟨octets.toArray⟩
    match before.get? path with
    | some (.file old) =>
      if old.isPrefixOf octets then
        let handle ← IO.FS.Handle.mk (handed path.text) .append
        handle.write (bytes (octets.drop old.length))
      else IO.FS.writeBinFile (handed path.text) (bytes octets)
    | _ => IO.FS.writeBinFile (handed path.text) (bytes octets)

/-- Writes what has changed. -/
def writeFiles (before after : Files) : IO Unit := do
  for (path, entry) in after.entries.reverse do
    if before.get? path != some entry then writeEntry before path entry

/-- Answers requests until the input ends. -/
partial def serve (session : Session) (w : Workspace) : IO Unit := do
  let line ← (← IO.getStdin).getLine
  if line.isEmpty then return
  let (method, rest) := Api.cut ' ' (String.ofList (line.toList.filter (· != '\n')))
  let (written, body) := Api.cut ' ' (rest.getD "")
  match Api.Target.parse? (received written) with
  | none =>
    IO.println "400"
    (← IO.getStdout).flush
    serve session w
  | some target =>
    let request : Api.Request :=
      { method, target, body := body.bind fun text => (Json.parse text.toList).toOption }
    let now ← currentTime
    let ((response, session), after) := (Api.answer session request).run { w with now }
    writeFiles w.files after.files
    IO.println (toString response.status ++ (response.body?.elim "" (" " ++ ·.render)))
    (← IO.getStdout).flush
    serve session { after with files := ← readProject session.directory }

/-- Runs the command of some words and gives its status. -/
def runWords (words : List String) : IO UInt32 := do
  let current := Path.resolve [] (received (toString (← IO.currentDir)))
  let directory := (Command.ofWords? words).bind (·.directory?)
  let files ← directory.elim (pure {}) fun text => readProject (current.resolve text)
  let (outcome, w) := (run words).run { files, current, now := ← currentTime }
  writeFiles files w.files
  match outcome with
  | .printed status output =>
    IO.print (handed output)
    return status.toUInt32
  | .misused =>
    IO.eprint programHelp
    return 2
  | .escaped cause =>
    IO.eprintln (handed cause.message)
    return 1
  | .serving session address =>
    IO.print (handed (address.servingText "0"))
    serve session w
    return 0

end FormulaBook.Main

/-- Runs the command that the words after the name of the program ask for. -/
def main (words : List String) : IO UInt32 :=
  FormulaBook.Main.runWords (words.map FormulaBook.Main.received)
