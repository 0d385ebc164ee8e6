import FormulaBook.Failure
import FormulaBook.Text.Utf8
import FormulaBook.Yaml.Load

/-!
# Configuration

The settings of a project, from the file `varcalc.yaml` and from defaults.

* `loadFile`: the value of a YAML file of a project;
* `Config`: the settings, with what each of them means;
* `Config.load`: the settings of a project.
-/

namespace FormulaBook

/-- How many levels of a file are written out: the map, its blocks and the entries of a block. What
an entry holds is seen from itself. -/
def fileLevels : Nat := 3

/-- The entries of the map in a YAML file, all octets of which must be text. A file whose value
counts as absent has none. -/
def loadFile (files : Files) (path : Path) : Except Failure (List (Value × Value)) := do
  let octets ← (files.read path).mapError .file
  let text ← (Text.Utf8.decode? octets).mapError .notText
  let document ← (Yaml.load text).mapError .notYaml
  let value := document.outline fileLevels
  if value.isEmpty then return []
  else
    match value with
    | .map entries => return entries
    | _ => .error (.notMapping path)

/-- The settings of a project. -/
structure Config where
  entries : List (Value × Value)

namespace Config

/-- The settings where a project says nothing. -/
def default : Config :=
  ⟨[(.text "display_precision", .int 10), (.text "strict_definitions", .bool true),
    (.text "logging_enabled", .bool true), (.text "logging_fsync", .bool false),
    (.text "logging_tail_bytes", .int Log.defaultWindow)]⟩

/-- The settings with others in their place. -/
def override (c : Config) (entries : List (Value × Value)) : Config :=
  ⟨entries.foldl (fun done (k, v) => Value.insertEntry k v done) c.entries⟩

/-- A setting. -/
def get? (c : Config) (name : String) : Option Value := (Value.map c.entries).get? name

/-- A setting that is on or off. -/
def flag (c : Config) (name : String) (absent : Bool) : Bool :=
  (c.get? name).elim absent (!·.isEmpty)

/-- The number of significant digits with which numbers are shown. -/
def precision (c : Config) : Except SettingError Int :=
  ((c.get? "display_precision").getD (.int defaultPrecision)).toInt

/-- Whether a workbook with an invalid definition is refused. -/
def isStrict (c : Config) : Bool := c.flag "strict_definitions" true

/-- Whether events are kept. -/
def keepsEvents (c : Config) : Bool := c.flag "logging_enabled" true

/-- The size of the window that a reader of the log looks at. -/
def window (c : Config) : Except SettingError Int :=
  match c.get? "logging_tail_bytes" with
  | none | some .null => .ok Log.defaultWindow
  | some v => v.toInt

/-- The file that holds the settings of the project in a directory. -/
def path (directory : Path) : Path := directory ++ ["varcalc.yaml"]

/-- The settings of the project in a directory. -/
def load (files : Files) (directory : Path) : Except Failure Config := do
  if files.has (path directory) then
    return default.override (← loadFile files (path directory))
  else return default

end Config

end FormulaBook
