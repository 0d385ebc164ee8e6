import FormulaBook.Project.Workspace
import FormulaBook.Text.Utf8

/-!
# New projects

A new project holds the variables and formulas of a small payroll.

* `demoWorkbook`, `demoConfig`: the files of a new project;
* `scaffold`: the creation of a project in a directory.
-/

namespace FormulaBook

/-- The definitions of a new project. -/
def demoWorkbook : String :=
"# varcalc workbook spec v1
version: 1

variables:
  - name: BASIC
    kind: constant
    expression: \"10000\"
  - name: DA
    kind: constant
    expression: \"2000\"
  - name: HRA
    kind: constant
    expression: \"3000\"
  - name: GROSS
    kind: dynamic
    expression: BASIC + DA + HRA
  - name: PF
    kind: constant
    expression: \"1200\"
  - name: TAX
    kind: constant
    expression: \"500\"
  - name: DEDUCTIONS
    kind: dynamic
    expression: PF + TAX

formulas:
  - name: NET_SALARY
    expression: GROSS - DEDUCTIONS
  - name: MONTHLY_SALARY
    expression: \"(GROSS / 30) * \x7b\x7b#num_of_days\x7d\x7d\"
  - name: BONUS
    expression: \"GROSS * \x7b\x7b#bonus_percentage\x7d\x7d / 100\"
"

/-- The settings of a new project. -/
def demoConfig : String :=
"# varcalc project configuration
display_precision: 10
strict_definitions: true
logging_enabled: true
# logging_fsync: false
"

/-- A change of the files that fails only with the files. -/
def Action.onFiles (change : Files → Except FileError Files) : Action Unit :=
  Action.changeFiles fun files => (change files).mapError .file

/-- Creates a project in a directory, which must not hold a workbook. The files are written one
after the other, so those before a failure stay. -/
def scaffold (directory : Path) : Action Unit := do
  Action.onFiles (·.makeDirectory directory)
  if (← get).files.has (Workbook.path directory) then throw (.workbookTaken directory)
  Action.onFiles (·.write (Workbook.path directory) (Text.octets demoWorkbook))
  Action.onFiles (·.write (Config.path directory) (Text.octets demoConfig))
  Action.onFiles (·.makeDirectory (directory ++ ["logs"]))

end FormulaBook
