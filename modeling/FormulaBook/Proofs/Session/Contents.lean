import FormulaBook.Proofs.Event.Writing
import FormulaBook.Workbook.Basic
import Mathlib.Logic.Function.Basic

/-!
# The files that a project is loaded from

A workbook is loaded from two files. What stands at their places decides the outcome, and the log of
the project is at another place.

* `ProjectFile`: the two files, with `ProjectFile.path`;
* `Files.put`: files with anything, or nothing, at a path;
* `Contents`: what stands at the places of the two files, with `Contents.of_put` for an edit;
* `ProjectFile.path_apart`: the log lies elsewhere;
* `Workbook.load_congr`: a workbook is loaded from the two files only.
-/

namespace FormulaBook

/-- The files of a project that a session is loaded from. -/
inductive ProjectFile where
  | workbook
  | settings
  deriving DecidableEq, Repr

/-- The name of a file. -/
def ProjectFile.name : ProjectFile → String
  | .workbook => "workbook.yaml"
  | .settings => "varcalc.yaml"

/-- The place of a file of the project in a directory. -/
def ProjectFile.path (directory : Path) (file : ProjectFile) : Path := directory ++ [file.name]

/-- The files with an entry at a path, or with nothing there. -/
def Files.put (files : Files) (path : Path) : Option FileEntry → Files
  | some e => files.set path e
  | none => ⟨files.entries.filter (·.1 != path)⟩

/-- What stands at the places of the two files. -/
abbrev Contents := ProjectFile → Option FileEntry

/-- The contents of the project in a directory. -/
def Contents.of (directory : Path) (files : Files) : Contents := fun file =>
  files.get? (file.path directory)

/-- Files that hold the contents and nothing else. -/
def Contents.files (directory : Path) (c : Contents) : Files :=
  (({} : Files).put (Workbook.path directory) (c .workbook)).put (Config.path directory)
    (c .settings)

section Files

variable {directory path place : Path} {files files' : Files}

theorem ProjectFile.path_injective (directory : Path) :
    Function.Injective (ProjectFile.path directory) := by
  intro a b h
  have hname : [a.name] = [b.name] := List.append_cancel_left h
  cases a <;> cases b
  case workbook.workbook | settings.settings => rfl
  all_goals exact absurd hname (by decide)

/-- No file lies on the way to the log, nor is it the log. -/
theorem ProjectFile.path_apart (file : ProjectFile) {sink : Sink} (h : sink.directory = directory) :
    ¬ file.path directory <+: sink.logs ∧ file.path directory ≠ sink.path := by
  subst h
  constructor
  · intro hinside
    have heq : sink.directory ++ [file.name] = sink.directory ++ ["logs"] :=
      hinside.eq_of_length (by simp [ProjectFile.path, Sink.logs])
    have hname : [file.name] = ["logs"] := List.append_cancel_left heq
    cases file <;> exact absurd hname (by decide)
  · intro heq
    have hlength := congrArg List.length heq
    simp [ProjectFile.path, Sink.path, Sink.logs] at hlength

theorem Files.get?_put_self (files : Files) (path : Path) (entry : Option FileEntry) :
    (files.put path entry).get? path = entry := by
  cases entry with
  | some e => exact get?_set_self files path e
  | none =>
    rw [get?, put, List.lookup_eq_none_iff]
    intro p hp
    rw [bne_comm]
    exact (List.mem_filter.1 hp).2

theorem Files.get?_put_of_ne (h : place ≠ path) (entry : Option FileEntry) :
    (files.put path entry).get? place = files.get? place := by
  cases entry with
  | some e => exact get?_set_of_ne h e
  | none => exact lookup_filter_ne h

/-- An edit of one of the files. -/
theorem Contents.of_put (files : Files) (file : ProjectFile) (entry : Option FileEntry) :
    Contents.of directory (files.put (file.path directory) entry) =
      Function.update (Contents.of directory files) file entry := by
  funext other
  by_cases hother : other = file
  · subst hother
    simp [Contents.of, Files.get?_put_self]
  · have hne := (ProjectFile.path_injective directory).ne hother
    simp [Contents.of, Files.get?_put_of_ne hne, hother]

theorem Contents.of_files (directory : Path) (c : Contents) :
    Contents.of directory (c.files directory) = c := by
  funext file
  cases file with
  | settings => exact Files.get?_put_self _ _ _
  | workbook =>
    have hne : ProjectFile.path directory .workbook ≠ ProjectFile.path directory .settings :=
      (ProjectFile.path_injective directory).ne (by decide)
    exact (Files.get?_put_of_ne hne _).trans (Files.get?_put_self _ _ _)

theorem loadFile_congr (h : files.get? path = files'.get? path) :
    loadFile files path = loadFile files' path := by
  simp only [loadFile, Files.read, h]

/-- A workbook is loaded from the two files only. -/
theorem Workbook.load_congr (h : Contents.of directory files = Contents.of directory files') :
    Workbook.load files directory = Workbook.load files' directory := by
  have hworkbook : files.get? (Workbook.path directory) = files'.get? (Workbook.path directory) :=
    congrFun h .workbook
  have hsettings : files.get? (Config.path directory) = files'.get? (Config.path directory) :=
    congrFun h .settings
  have hconfig : Config.load files directory = Config.load files' directory := by
    rw [Config.load, Config.load, Files.has, Files.has, hsettings, loadFile_congr hsettings]
  rw [Workbook.load, Workbook.load, Files.has, Files.has, hworkbook, loadFile_congr hworkbook]
  simp only [hconfig]

end Files

end FormulaBook
