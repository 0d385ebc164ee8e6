import FormulaBook.Event.Sink
import FormulaBook.Proofs.Lookup
import FormulaBook.Proofs.Outcome

/-!
# Writing events

Each event that is written adds its line to the end of the log and leaves what was there before. The
directories that are created on the way are other places than the log.

* `Files.get?_set_self`, `Files.get?_set_of_ne`: what stands at a place that is set, and elsewhere;
* `Files.write_eq_ok`, `Files.get?_makeDirectory`: what an operation that succeeds changes;
* `Sink.content_eq_ok`: when a log can be read;
* `Sink.get?_append_of_not_prefix`: the places that a log leaves alone;
* `Sink.write_eq_ok`, `Sink.content_write`: what one event does to the log;
* `Sink.content_writes`, `Sink.writable_of_writes`: what a row of events does.
-/

namespace FormulaBook

/-! ### Files -/

namespace Files

variable {files files' : Files} {path place : Path} {octets : List UInt8}

theorem get?_set_self (files : Files) (path : Path) (e : FileEntry) :
    (files.set path e).get? path = some e :=
  List.lookup_cons_self

theorem get?_set_of_ne (h : place ≠ path) (e : FileEntry) :
    (files.set path e).get? place = files.get? place := by
  rw [get?, set, lookup_cons_of_ne h, lookup_filter_ne h]
  rfl

theorem write_eq_ok (h : files.write path octets = .ok files') :
    files' = files.set path (.file octets) ∧ files.get? path ≠ some .directory := by
  unfold write at h
  split at h
  · cases h
  · rename_i hdirectory
    split at h
    · cases h
    · cases h
      exact ⟨rfl, hdirectory⟩
  · cases h
  · cases h

/-- A directory is created on the way to its place and nowhere else. -/
theorem get?_makeDirectoryFrom {target done rest : Path}
    (h : makeDirectoryFrom target done rest files = .ok files')
    (hplace : ¬ place <+: done ++ rest) : files'.get? place = files.get? place := by
  induction rest generalizing done files with
  | nil =>
    cases h
    rfl
  | cons name rest ih =>
    rw [List.append_cons] at hplace
    have hne : place ≠ done ++ [name] := by
      rintro rfl
      exact hplace (List.prefix_append _ _)
    simp only [makeDirectoryFrom] at h
    split at h
    · exact ih h hplace
    · cases h
    · split at h
      · cases h
      · rw [ih h hplace, get?_set_of_ne hne]

theorem get?_makeDirectory (h : files.makeDirectory path = .ok files')
    (hplace : ¬ place <+: path) : files'.get? place = files.get? place :=
  get?_makeDirectoryFrom h hplace

/-- Octets at the end of a file change no other place. -/
theorem get?_append_of_ne (h : files.append path octets = .ok files') (hne : place ≠ path) :
    files'.get? place = files.get? place := by
  unfold append at h
  split at h
  all_goals
    obtain ⟨rfl, -⟩ := write_eq_ok h
    exact get?_set_of_ne hne _

/-- Octets are written after those of the file, or into a new file. -/
theorem get?_append (h : files.append path octets = .ok files') :
    files.get? path ≠ some .directory ∧ ∀ before, files.get? path = some (.file before) ∨
      files.get? path = none ∧ before = [] →
      files'.get? path = some (.file (before ++ octets)) := by
  unfold append at h
  split at h
  · rename_i old hold
    obtain ⟨rfl, hdirectory⟩ := write_eq_ok h
    refine ⟨hdirectory, ?_⟩
    rintro before (hbefore | ⟨hnone, -⟩)
    · rw [hold] at hbefore
      cases hbefore
      exact get?_set_self _ _ _
    · rw [hold] at hnone
      cases hnone
  · rename_i hnone
    obtain ⟨rfl, hdirectory⟩ := write_eq_ok h
    refine ⟨hdirectory, ?_⟩
    rintro before (hbefore | ⟨-, rfl⟩)
    · exact absurd hbefore (hnone before)
    · exact get?_set_self _ _ _

end Files

/-! ### The log -/

namespace Sink

variable {s : Sink} {e : Event} {events : List Event} {files files' : Files}
  {before : List UInt8}

/-- A log can be read if it is a file, or if nothing is there. -/
theorem content_eq_ok : s.content files = .ok before ↔
    files.get? s.path = some (.file before) ∨ files.get? s.path = none ∧ before = [] := by
  rw [content, Files.has, Files.read]
  cases files.get? s.path with
  | none => simp [eq_comm]
  | some entry => cases entry <;> simp [mapError_eq_ok]

theorem content_append {octets : List UInt8} (h : s.append octets files = .ok files')
    (hbefore : s.content files = .ok before) : s.content files' = .ok (before ++ octets) := by
  obtain ⟨made, hmade, happend⟩ := bind_eq_ok.1 h
  have hsame : made.get? s.path = files.get? s.path :=
    Files.get?_makeDirectory hmade fun hinside => absurd hinside.length_le (by simp [path])
  rw [content_eq_ok, ← hsame] at hbefore
  exact content_eq_ok.2 (.inl ((Files.get?_append happend).2 before hbefore))

/-- Octets at the end of a log change only the log and directories on the way to it. -/
theorem get?_append_of_not_prefix {octets : List UInt8} {place : Path}
    (h : s.append octets files = .ok files') (hplace : ¬ place <+: s.logs) (hne : place ≠ s.path) :
    files'.get? place = files.get? place := by
  obtain ⟨made, hmade, happend⟩ := bind_eq_ok.1 h
  rw [Files.get?_append_of_ne happend hne, Files.get?_makeDirectory hmade hplace]

/-- An event that is written is not too deep, and no number in it is too long. -/
theorem write_eq_ok (h : s.write e files = .ok files') :
    e.isTooDeep = false ∧ e.hasLongNumber = false ∧ s.append e.line files = .ok files' := by
  unfold write at h
  split at h
  · cases h
  · rename_i hdeep
    split at h
    · cases h
    · rename_i hlong
      exact ⟨by simpa using hdeep, by simpa using hlong, mapError_eq_ok.1 h⟩

/-- An event that is written adds its line to the log. -/
theorem content_write (h : s.write e files = .ok files') (hbefore : s.content files = .ok before) :
    s.content files' = .ok (before ++ e.line) :=
  content_append (write_eq_ok h).2.2 hbefore

/-- Events that are written add their lines to the log. -/
theorem content_writes (h : events.foldlM (fun files e => s.write e files) files = .ok files')
    (hbefore : s.content files = .ok before) :
    s.content files' = .ok (before ++ events.flatMap Event.line) := by
  induction events generalizing files before with
  | nil =>
    cases h
    simpa using hbefore
  | cons e events ih =>
    rw [List.foldlM_cons] at h
    obtain ⟨between, hwrite, hrest⟩ := bind_eq_ok.1 h
    rw [ih hrest (content_write hwrite hbefore), List.flatMap_cons, List.append_assoc]

theorem writable_of_writes (h : events.foldlM (fun files e => s.write e files) files = .ok files') :
    ∀ e ∈ events, e.isTooDeep = false ∧ e.hasLongNumber = false := by
  induction events generalizing files with
  | nil => simp
  | cons e events ih =>
    rw [List.foldlM_cons] at h
    obtain ⟨between, hwrite, hrest⟩ := bind_eq_ok.1 h
    obtain ⟨hdeep, hlong, -⟩ := write_eq_ok hwrite
    exact List.forall_mem_cons.2 ⟨⟨hdeep, hlong⟩, ih hrest⟩

/-- A log that is not there has no octets. -/
theorem content_of_absent (h : files.has s.path = false) : s.content files = .ok [] := by
  rw [content, h]
  rfl

end Sink

end FormulaBook
