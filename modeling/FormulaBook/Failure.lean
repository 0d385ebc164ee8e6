import FormulaBook.Event.Log
import FormulaBook.NumberFormat
import FormulaBook.Project.Files
import FormulaBook.Project.Setting
import FormulaBook.Text.Utf8
import FormulaBook.Workbook.Spec
import FormulaBook.Yaml.Cursor

/-!
# Failures

Why an operation on a project has no result.

* `Failure`: the causes;
* `FailureSort`, `Failure.sort`: what kind of mistake a cause is;
* `Failure.message`: the text that a person sees;
* `displayed`: the shown form of a number.
-/

namespace FormulaBook

/-- Why an operation on a project has no result. -/
inductive Failure where
  | workbookMissing (directory : Path)
  | workbookTaken (directory : Path)
  | notMapping (file : Path)
  | notText (cause : Text.Utf8.DecodeError)
  | notYaml (cause : Yaml.Error)
  | spec (cause : SpecError)
  | definitions (problems : List String)
  | setting (cause : SettingError)
  | precision (cause : PrecisionError)
  | unknownFormula (name : String)
  | evaluation (cause : EvalError)
  | file (cause : FileError)
  | log (cause : Log.ReadError)
  /-- An event is too deep to be written. -/
  | eventTooDeep
  /-- An event holds a whole number that is too long to be written. -/
  | eventLongNumber
  /-- A written path holds the character that no name may hold. -/
  | nullInPath
  /-- A text that is to be sent out as octets holds half of a pair. -/
  | halfInText

/-- The kinds of mistake. -/
inductive FailureSort where
  | fileMissing
  | fileExists
  | badValue
  | badKey
  | notYaml
  | evaluation
  | unexpected
  deriving DecidableEq, Repr

namespace Failure

/-- The kind of mistake that a cause is. -/
def sort : Failure → FailureSort
  | .workbookMissing _ => .fileMissing
  | .workbookTaken _ => .fileExists
  | .notMapping _ => .badValue
  | .notText _ => .badValue
  | .notYaml .malformed => .notYaml
  | .notYaml (.badValue _) => .badValue
  | .notYaml (.unknownTruth _) => .badKey
  | .notYaml .unsuitable => .unexpected
  | .spec cause => if cause.isTooDeep then .unexpected else .badValue
  | .definitions _ => .badValue
  | .setting .unsuitable => .unexpected
  | .setting _ => .badValue
  | .precision _ => .badValue
  | .unknownFormula _ => .badKey
  | .evaluation _ => .evaluation
  | .file (.missing _) => .fileMissing
  | .file (.taken _) => .fileExists
  | .file _ => .unexpected
  | .log (.tooManyDigits _) => .badValue
  | .log _ => .unexpected
  | .eventTooDeep | .eventLongNumber => .badValue
  | .nullInPath => .badValue
  | .halfInText => .unexpected

/-- The text that a person sees. -/
def message : Failure → String
  | .workbookMissing directory => "No workbook.yaml found in " ++ directory.text
  | .workbookTaken directory => "workbook.yaml already exists in " ++ directory.text
  | .notMapping path => path.text ++ " must contain a mapping"
  | .notText cause => cause.message
  | .notYaml (.badValue words) => words
  | .notYaml (.unknownTruth word) => word
  | .notYaml _ => ""
  | .spec cause => cause.message
  | .definitions problems => "Invalid definitions:\n  " ++ "\n  ".intercalate problems
  | .setting cause => cause.message
  | .precision cause => cause.message
  | .unknownFormula name => "Unknown formula: " ++ Text.quote name
  | .evaluation cause => cause.message
  | .file cause => cause.message
  | .log (.tooManyDigits digits) => Decimal.longNumeralMessage digits
  | .log _ => ""
  | .eventTooDeep => Event.tooDeepMessage
  | .eventLongNumber => Decimal.longNumberMessage
  | .nullInPath => "embedded null byte"
  | .halfInText => ""

/-- Whether a workbook that fails to load for this cause is reported to the person who asked for
it: its file is missing, or its content is wrong. -/
def isReported (f : Failure) : Bool := f.sort == .fileMissing || f.sort == .badValue

end Failure

/-- The shown form of a number where no settings apply. -/
def displayed (x : Float) : Except Failure String :=
  (formatNumber x defaultPrecision).mapError .precision

end FormulaBook
