import FormulaBook.CommandLine.Words
import FormulaBook.Event.Log
import FormulaBook.Project.Setting

/-!
# Commands

What can be asked for on the command line, and the words with which it is asked.

* `Form`: the words of a command: its name, arguments and options, with `Form.help`;
* `Command`: what is asked for, with `Address`, the place where a project is served;
* `Command.ofWords?`: the command that some words ask for.
-/

namespace FormulaBook.CommandLine

/-- The words of a command: its name, the names of its arguments, its options, and what it does. -/
structure Form where
  name : String
  arguments : List String
  flags : List Flag := []
  about : String

/-! ### Help -/

/-- The option with which help is asked for. -/
def helpFlag : Flag := { name := "--help", about := "Show this message and exit." }

/-- The text with blanks after it, up to a width. -/
def padded (width : Nat) (s : String) : String :=
  s ++ String.ofList (List.replicate (width - Text.size s.toList) ' ')

/-- Rows of two columns under a title, the second column two places after the widest entry of the
first. -/
def columns (title : String) (rows : List (String × String)) : String :=
  let width := (rows.map (·.1.length)).foldl max 0 + 2
  title ++ ":\n" ++ String.join (rows.map fun (left, right) =>
    "  " ++ padded width left ++ right ++ "\n")

/-- The row of an option. -/
def Flag.row (f : Flag) : String × String :=
  (f.name ++ f.value.elim "" (" " ++ ·), f.about)

/-- The explanation of something that is asked for with some words. -/
def helpText (words : List String) (about : String) (flags : List Flag) : String :=
  "Usage: " ++ " ".intercalate words ++ "\n\n  " ++ about ++ "\n\n" ++
    columns "Options" (flags.map (·.row))

/-- The name of the program in explanations. -/
def programName : String := "main"

/-- The explanation of a command. -/
def Form.help (f : Form) : String :=
  helpText (programName :: f.name :: "[OPTIONS]" :: f.arguments) f.about (f.flags ++ [helpFlag])

/-! ### The words of the commands -/

/-- The option that asks for JSON. -/
def jsonFlag : Flag := { name := "--json", about := "Output as JSON." }

/-- The words that create a project. -/
def newForm : Form :=
  { name := "new", arguments := ["DIRECTORY"], about := "Scaffold a demo project at DIRECTORY." }

/-- The words that evaluate an expression. -/
def evalForm : Form :=
  { name := "eval", arguments := ["EXPRESSION"]
    about := "Evaluate a numeric EXPRESSION, e.g. \"(2 + 3) * 4\"." }

/-- The words that resolve the variables of a project. -/
def resolveForm : Form :=
  { name := "resolve", arguments := ["DIRECTORY"], flags := [jsonFlag]
    about := "Resolve every variable in DIRECTORY and show values or errors." }

/-- The words that list the formulas of a project. -/
def formulasForm : Form :=
  { name := "formulas", arguments := ["DIRECTORY"]
    about := "List formulas in DIRECTORY with the runtime inputs they need." }

/-- The words that execute a formula. -/
def executeForm : Form :=
  { name := "execute", arguments := ["DIRECTORY", "FORMULA_NAME"]
    flags :=
      [{ name := "--ctx", value := some "TEXT", about := "Context value as name=value." }, jsonFlag]
    about := "Execute FORMULA_NAME from DIRECTORY with runtime context values." }

/-- The words that serve a project. -/
def uiForm : Form :=
  { name := "ui", arguments := ["DIRECTORY"]
    flags :=
      [{ name := "--host", value := some "TEXT", about := "Host to bind to." },
        { name := "--port", value := some "INTEGER", about := "Port (auto-select if omitted)." }]
    about := "Serve the JSON API for DIRECTORY." }

/-- The words that show the events of a project. -/
def eventsForm : Form :=
  { name := "events", arguments := ["DIRECTORY"]
    flags :=
      [{ name := "--level", value := some "[info|warning|error]", about := "Filter by level." },
        { name := "--type", value := some "TEXT", about := "Filter by event type." },
        { name := "--name", value := some "TEXT"
          about := "Only events about this formula or variable." },
        { name := "--limit", value := some "INTEGER", about := "Maximum events to show." }]
    about := "Show structured event log for DIRECTORY." }

/-- The forms of all commands, in the order of their names. -/
def forms : List Form :=
  [evalForm, eventsForm, executeForm, formulasForm, newForm, resolveForm, uiForm]

/-- The option with which the version is asked for. -/
def versionFlag : Flag := { name := "--version", about := "Show the version and exit." }

/-- The beginning of an explanation up to the first word that ends with a point. -/
def summary (about : String) : String :=
  let words := about.splitOn " "
  let before := words.takeWhile fun w => w.toList.getLast? != some '.'
  " ".intercalate (words.take (before.length + 1))

/-- The explanation of the program. -/
def programHelp : String :=
  helpText [programName, "[OPTIONS]", "COMMAND", "[ARGS]..."]
      "varcalc -- named variables, formulas and runtime placeholders."
      [versionFlag, helpFlag] ++
    "\n" ++ columns "Commands" (forms.map fun f => (f.name, summary f.about))

/-! ### Commands -/

/-- Where a project is served: a host and the number of a channel, which the system chooses if none
is given. -/
structure Address where
  host : String
  channel : Option Int

/-- What is asked for on the command line. -/
inductive Command where
  | version
  | help (text : String)
  | create (directory : String)
  | evaluate (expression : String)
  | resolve (directory : String) (json : Bool)
  | formulas (directory : String)
  | execute (directory formula : String) (context : List String) (json : Bool)
  | serve (directory : String) (address : Address)
  | events (directory : String) (query : Log.Query)

namespace Command

/-- The directory that a command works on. -/
def directory? : Command → Option String
  | .create directory | .resolve directory _ | .formulas directory | .execute directory _ _ _
  | .serve directory _ | .events directory _ => some directory
  | .version | .help _ | .evaluate _ => none

/-- The whole number that an option is given; the option may be absent. -/
def int? (w : Words) (name : String) : Option (Option Int) :=
  match w.value? name with
  | none => some none
  | some s => (Value.text s).toInt.toOption.map some

/-- The query for events that some options ask for. -/
def query? (w : Words) : Option Log.Query := do
  let limit ← int? w "--limit"
  let level := (w.value? "--level").getD ""
  if w.has "--level" && (EventLevel.ofName? level).isNone then none
  return { level, type := (w.value? "--type").getD "", subject := (w.value? "--name").getD ""
           limit := limit.getD 100 }

/-- The command with a name whose arguments and options are `w`. -/
def ofForm? (name : String) (w : Words) : Option Command :=
  match name, w.arguments with
  | "new", [directory] => some (.create directory)
  | "eval", [expression] => some (.evaluate expression)
  | "resolve", [directory] => some (.resolve directory (w.has "--json"))
  | "formulas", [directory] => some (.formulas directory)
  | "execute", [directory, formula] =>
    some (.execute directory formula (w.values "--ctx") (w.has "--json"))
  | "ui", [directory] =>
    (int? w "--port").map fun channel =>
      .serve directory ⟨(w.value? "--host").getD "127.0.0.1", channel⟩
  | "events", [directory] => (query? w).map (.events directory ·)
  | _, _ => none

/-- The command that the words after its name ask for. A request for help goes before all else. -/
def ofFormWords? (f : Form) (words : List String) : Option Command := do
  let w ← Words.read? (f.flags ++ [helpFlag]) words
  if w.has helpFlag.name then return .help f.help
  ofForm? f.name w

/-- The command that is asked for by the first option that some words hold in front of the name of
a command. -/
def ofProgramOptions? (w : Words) : Option Command :=
  w.options.head?.map fun (name, _) =>
    if name == versionFlag.name then .version else .help programHelp

/-- The command that some words ask for: options of the program, then the name of a command and its
words. -/
def ofWords? (words : List String) : Option Command := do
  let options := words.takeWhile Words.isOption
  let front := options.takeWhile (· != "--")
  let w ← Words.read? [versionFlag, helpFlag] front
  (ofProgramOptions? w).or <|
    match words.drop (if front.length < options.length then front.length + 1 else front.length) with
    | [] => none
    | name :: rest => (forms.find? (·.name == name)).bind (ofFormWords? · rest)

end Command

end FormulaBook.CommandLine
