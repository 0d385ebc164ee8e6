import FormulaBook.Event.Basic
import FormulaBook.Proofs.Json.Fields
import Mathlib.Data.List.Perm.Basic

/-!
# Events that are marked

An event that lacks keys is marked before it is written: its context lists the keys that it lacks,
and it is a warning at least. A list that the context held before is replaced, and nothing else in
the event changes. No type asks for the key of the list, so a marked event lacks what it lacked
before, and it stays as it is when it is checked again.

* `EventLevel.gravity`: the levels by how grave they are;
* `Event.Carries`, `Event.Lacks`: the keys of an event, and those that it lacks, with
  `Event.lacks_missing` and `Event.Lacks.unique`;
* `Event.checked_of_carries`, `Event.checked_of_isMarked`: the events that stay as they are;
* `Event.Marks`: what an event that lacks keys becomes, with `Event.marks_checked`;
* `Event.checked_marks`: what becomes of any event.
-/

namespace FormulaBook

/-- The levels by how grave they are. -/
def EventLevel.gravity : EventLevel → Nat
  | .info => 0
  | .warning => 1
  | .error => 2

theorem EventType.nodup_required (t : EventType) : t.required.Nodup := by
  cases t <;> decide

namespace Event

variable {e marked : Event} {key : String} {keys keys' : List String}

theorem ne_missingKey (h : key ∈ e.type.required) : key ≠ missingKey := by
  have hall : ∀ t : EventType, missingKey ∉ t.required := by
    intro t
    cases t <;> decide
  rintro rfl
  exact hall e.type h

/-! ### Keys that an event lacks -/

/-- Whether the context of an event has a value under a key. -/
def Carries (e : Event) (key : String) : Prop := key ∈ e.context.map Prod.fst

instance (e : Event) (key : String) : Decidable (e.Carries key) :=
  inferInstanceAs (Decidable (key ∈ e.context.map Prod.fst))

/-- Some keys are those that an event must carry and does not, in the order of its type. -/
structure Lacks (e : Event) (keys : List String) : Prop where
  sublist : keys.Sublist e.type.required
  mem_iff : ∀ key, key ∈ keys ↔ key ∈ e.type.required ∧ ¬ e.Carries key

theorem mem_missing : key ∈ e.missing ↔ key ∈ e.type.required ∧ ¬ e.Carries key := by
  rw [missing, List.mem_filter, Option.isNone_iff_eq_none, lookup_eq_none_iff, Carries]

theorem lacks_missing (e : Event) : e.Lacks e.missing where
  sublist := List.filter_sublist
  mem_iff _ := mem_missing

/-- An event lacks only one list of keys, as no type asks for a key twice. -/
theorem Lacks.unique (h : e.Lacks keys) (h' : e.Lacks keys') : keys = keys' := by
  have hnodup := e.type.nodup_required
  have hperm : keys.Perm keys' :=
    (List.perm_ext_iff_of_nodup (hnodup.sublist h.sublist) (hnodup.sublist h'.sublist)).2
      fun key => (h.mem_iff key).trans (h'.mem_iff key).symm
  exact (hnodup.perm_iff_eq_of_sublist h.sublist h'.sublist).1 hperm

/-! ### Events that stay as they are -/

/-- An event that lists what it lacks, and is a warning at least. -/
structure IsMarked (e : Event) : Prop where
  level : e.level ≠ .info
  listed : ∃ keys, e.Lacks keys ∧ e.context.lookup missingKey = some (.list (keys.map .text))

theorem checked_of_carries (h : ∀ key ∈ e.type.required, e.Carries key) : e.checked = e := by
  have hmissing : e.missing = [] :=
    List.eq_nil_iff_forall_not_mem.2 fun key hkey =>
      (mem_missing.1 hkey).2 (h key (mem_missing.1 hkey).1)
  rw [checked, hmissing]
  rfl

theorem checked_of_isMarked (h : e.IsMarked) : e.checked = e := by
  obtain ⟨keys, hlacks, hlookup⟩ := h.listed
  have hlevel : (if e.level == .info then EventLevel.warning else e.level) = e.level :=
    if_neg (by simpa using h.level)
  rw [hlacks.unique e.lacks_missing] at hlookup
  rw [checked, Json.setField_of_lookup hlookup, hlevel, ite_self]

/-! ### Marks -/

/-- What an event that lacks keys becomes: these keys are listed in its context, the level is that
of a warning if it was less grave, and all else stays as it is. -/
structure Marks (e marked : Event) : Prop where
  listed : ∃ keys, e.Lacks keys ∧ marked.context.lookup missingKey = some (.list (keys.map .text))
  others : marked.context.filter (·.1 != missingKey) = e.context.filter (·.1 != missingKey)
  fields : { marked with context := e.context, level := e.level } = e
  gravity : marked.level.gravity = max e.level.gravity EventLevel.warning.gravity

theorem marks_checked (h : ∃ key ∈ e.type.required, ¬ e.Carries key) : e.Marks e.checked := by
  obtain ⟨key, hkey, hnot⟩ := h
  have hmissing : ¬ e.missing.isEmpty = true := fun hempty =>
    List.ne_nil_of_mem (mem_missing.2 ⟨hkey, hnot⟩) (List.isEmpty_iff.1 hempty)
  rw [checked, if_neg hmissing]
  exact
    { listed := ⟨e.missing, e.lacks_missing, by rw [Json.lookup_setField, if_pos rfl]⟩
      others := Json.filter_setField missingKey _ e.context
      fields := rfl
      gravity := by cases hlevel : e.level <;> rfl }

namespace Marks

theorem lookup (h : e.Marks marked) (hkey : key ≠ missingKey) :
    marked.context.lookup key = e.context.lookup key := by
  rw [← lookup_filter_ne hkey, h.others, lookup_filter_ne hkey]

theorem type (h : e.Marks marked) : marked.type = e.type :=
  (congrArg Event.type h.fields :)

/-- An event lacks the same keys when it is marked, as no type asks for the key of the list. -/
theorem lacks (h : e.Marks marked) (hlacks : e.Lacks keys) : marked.Lacks keys where
  sublist := h.type ▸ hlacks.sublist
  mem_iff key := by
    rw [hlacks.mem_iff, h.type]
    refine and_congr_right fun hkey => not_congr ?_
    rw [Carries, Carries, ← isSome_lookup, ← isSome_lookup, h.lookup (ne_missingKey hkey)]

theorem isMarked (h : e.Marks marked) : marked.IsMarked where
  level hinfo := by
    have hwarning : EventLevel.warning.gravity ≤ marked.level.gravity :=
      h.gravity ▸ Nat.le_max_right _ _
    rw [hinfo] at hwarning
    exact absurd hwarning (by decide)
  listed := by
    obtain ⟨keys, hlacks, hlookup⟩ := h.listed
    exact ⟨keys, h.lacks hlacks, hlookup⟩

end Marks

/-- An event carries its keys and stays as it is, or it is marked. -/
theorem checked_cases (e : Event) :
    ((∀ key ∈ e.type.required, e.Carries key) ∧ e.checked = e) ∨
      (∃ key ∈ e.type.required, ¬ e.Carries key) ∧ e.Marks e.checked := by
  by_cases h : ∀ key ∈ e.type.required, e.Carries key
  · exact .inl ⟨h, checked_of_carries h⟩
  · push Not at h
    exact .inr ⟨h, marks_checked h⟩

/-- What stands under another key than that of the list is kept. -/
theorem lookup_checked (e : Event) (hkey : key ≠ missingKey) :
    e.checked.context.lookup key = e.context.lookup key := by
  obtain ⟨-, heq⟩ | ⟨-, hmarks⟩ := e.checked_cases
  · rw [heq]
  · exact hmarks.lookup hkey

/-- **What becomes of an event that is checked.** Whatever its context holds, it is the same whether
it is checked once or twice. It stays as it is if it carries the keys that its type asks for. If it
lacks some, then they are listed in the order of its type, the other entries of the context and the
other fields of the event stay, and the level becomes that of a warning if it was less grave. Its
level is never less grave than before, it is about what it was about, and if it is still no warning,
then it carries its keys. -/
theorem checked_marks (e : Event) :
    e.checked.checked = e.checked ∧
    ((∀ key ∈ e.type.required, e.Carries key) → e.checked = e) ∧
    ((∃ key ∈ e.type.required, ¬ e.Carries key) → e.Marks e.checked) ∧
    (∀ key ≠ missingKey, e.checked.context.lookup key = e.context.lookup key) ∧
    e.level.gravity ≤ e.checked.level.gravity ∧
    e.checked.subject? = e.subject? ∧
    (e.checked.level = .info → ∀ key ∈ e.checked.type.required, e.checked.Carries key) := by
  have hsubject : e.checked.subject? = e.subject? := by
    rw [subject?, contextSubject?, e.lookup_checked (by decide), e.lookup_checked (by decide)]
    rfl
  obtain ⟨hcarries, heq⟩ | ⟨-, hmarks⟩ := e.checked_cases
  · refine ⟨congrArg checked heq, checked_of_carries, marks_checked, fun _ => e.lookup_checked, ?_,
      hsubject, ?_⟩
    · exact Nat.le_of_eq (congrArg (·.level.gravity) heq.symm)
    · rw [heq]
      exact fun _ => hcarries
  · have hmarked := hmarks.isMarked
    have hgravity : e.level.gravity ≤ e.checked.level.gravity :=
      hmarks.gravity ▸ Nat.le_max_left _ _
    exact ⟨checked_of_isMarked hmarked, checked_of_carries, marks_checked,
      fun _ => e.lookup_checked, hgravity, hsubject, fun hinfo => absurd hinfo hmarked.level⟩

/-- An event that lists a key that it carries, and lacks another one. -/
def halfCounted : Event where
  time := "2024-05-01T12:00:00Z"
  level := .info
  type := .resolveCompleted
  context := [(missingKey, .list [.text "variable_count"]), ("variable", .text "GROSS"),
    ("variable_count", .int 3)]

/-- The same event with the key that it lacks, and with the list that is out of date. -/
def fullyCounted : Event :=
  { halfCounted with context := ("error_count", .int 0) :: halfCounted.context }

/-- The list is replaced where a key is missing, and stays where none is. -/
theorem checked_marks_counted :
    (∃ key ∈ halfCounted.type.required, ¬ halfCounted.Carries key) ∧
    halfCounted.Marks halfCounted.checked ∧
    halfCounted.checked.context.lookup missingKey = some (.list [.text "error_count"]) ∧
    halfCounted.checked.checked = halfCounted.checked ∧
    halfCounted.checked.subject? = some "GROSS" ∧
    (∀ key ∈ fullyCounted.type.required, fullyCounted.Carries key) ∧
    fullyCounted.checked = fullyCounted ∧ fullyCounted.level = .info := by
  obtain ⟨htwice, -, hmarks, -, -, hsubject, -⟩ := checked_marks halfCounted
  obtain ⟨-, hstays, -⟩ := checked_marks fullyCounted
  have hlacks : ∃ key ∈ halfCounted.type.required, ¬ halfCounted.Carries key := by decide
  have hcarries : ∀ key ∈ fullyCounted.type.required, fullyCounted.Carries key := by decide
  exact ⟨hlacks, hmarks hlacks, rfl, htwice, hsubject, hcarries, hstays hcarries, rfl⟩

end Event

end FormulaBook
