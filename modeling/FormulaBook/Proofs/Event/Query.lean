import FormulaBook.Event.Log
import FormulaBook.Proofs.Outcome
import Mathlib.Data.List.Infix
import Mathlib.Tactic.Common

/-!
# Queries

What a query takes from a row of entries, said without the order in which it looks at them: those
that it wants, up to the number that there is room for. A query that asks for nothing can be put to
every entry. One that asks for a level, a type or a subject can be put to objects only, and one that
asks for a subject only to entries whose context can hold one.

* `HasSubject`: the subject of a context of any form, with `subjectOf_eq_ok`;
* `Query.Wants`, `Query.Suits`: the entries that a query asks for, and those that it can be put to;
* `Query.accepts_eq_true`, `Query.accepts_eq_error`: how a query decides about an entry;
* `Query.room`: how many entries there is room for;
* `Query.select_eq_ok`, `Query.select_eq_error`: what a query takes, and when it fails;
* `Query.select_of_suits`, `Query.select_of_prefix`: a query that can be put to all entries, and one
  that is put to the first of them.
-/

namespace FormulaBook.Log

open Text

namespace Query

/-! ### Subjects -/

/-- The subject of a context of any form. A context that counts as absent has none. Neither has a
text of which no key of a subject is a part, nor a list without such a key. -/
inductive HasSubject : Json → Option String → Prop
  | absent {context : Json} (h : context.isFalsy = true) : HasSubject context none
  | object (fields : List (String × Json)) : HasSubject (.object fields) (contextSubject? fields)
  | text {s : String} (hformula : ¬ "formula".toList <:+: s.toList)
      (hvariable : ¬ "variable".toList <:+: s.toList) : HasSubject (.text s) none
  | list {items : List Json} (hformula : .text "formula" ∉ items)
      (hvariable : .text "variable" ∉ items) : HasSubject (.list items) none

theorem isPart_iff {part l : List Char} : isPart part l = true ↔ part <:+: l := by
  induction l with
  | nil => simp [isPart]
  | cons c l ih => rw [isPart, Bool.or_eq_true, ih, List.isPrefixOf_iff_prefix, List.infix_cons_iff]

/-- Whether a value is the text of a key. -/
def isKey : Json → Bool
  | .text s => s == "formula" || s == "variable"
  | _ => false

theorem any_isKey {items : List Json} :
    items.any isKey = true ↔ .text "formula" ∈ items ∨ .text "variable" ∈ items := by
  rw [List.any_eq_true]
  constructor
  · rintro ⟨j, hj, hkey⟩
    unfold isKey at hkey
    split at hkey
    · rw [Bool.or_eq_true, beq_iff_eq, beq_iff_eq] at hkey
      obtain rfl | rfl := hkey
      · exact .inl hj
      · exact .inr hj
    · cases hkey
  · rintro (h | h) <;> exact ⟨_, h, rfl⟩

theorem subjectOf_of_isFalsy {context : Json} (h : context.isFalsy = true) :
    subjectOf context = .ok none := by
  unfold subjectOf
  rw [if_pos h]

theorem subjectOf_object (fields : List (String × Json)) :
    subjectOf (.object fields) = .ok (contextSubject? fields) := by
  cases fields <;> rfl

theorem subjectOf_text {s : String} : subjectOf (.text s) =
    if "formula".toList <:+: s.toList ∨ "variable".toList <:+: s.toList then
      .error .unexpectedForm
    else .ok none := by
  by_cases h : s = ""
  · subst h
    rw [if_neg (by decide)]
    rfl
  · have hfalsy : ¬ (Json.text s).isFalsy = true := by simpa [Json.isFalsy] using h
    unfold subjectOf
    rw [if_neg hfalsy]
    simp only [Bool.or_eq_true, isPart_iff]

theorem subjectOf_list {items : List Json} : subjectOf (.list items) =
    if items.any isKey then .error .unexpectedForm else .ok none := by
  cases items <;> rfl

theorem subjectOf_eq_ok {context : Json} {subject : Option String} :
    subjectOf context = .ok subject ↔ HasSubject context subject := by
  constructor
  · intro h
    by_cases hfalsy : context.isFalsy = true
    · rw [subjectOf_of_isFalsy hfalsy] at h
      cases h
      exact .absent hfalsy
    · cases context with
      | object fields =>
        rw [subjectOf_object] at h
        cases h
        exact .object fields
      | text s =>
        rw [subjectOf_text] at h
        split at h <;> cases h
        rename_i hparts
        exact .text (not_or.1 hparts).1 (not_or.1 hparts).2
      | list items =>
        rw [subjectOf_list] at h
        split at h <;> cases h
        rename_i hkeys
        rw [any_isKey, not_or] at hkeys
        exact .list hkeys.1 hkeys.2
      | null | bool | int | float =>
        unfold subjectOf at h
        rw [if_neg hfalsy] at h
        cases h
  · rintro (h | fields | ⟨hformula, hvariable⟩ | ⟨hformula, hvariable⟩)
    · exact subjectOf_of_isFalsy h
    · exact subjectOf_object fields
    · rw [subjectOf_text, if_neg (not_or.2 ⟨hformula, hvariable⟩)]
    · rw [subjectOf_list, if_neg (mt any_isKey.1 (not_or.2 ⟨hformula, hvariable⟩))]

theorem subjectOf_eq_error {context : Json} {e : ReadError} : subjectOf context = .error e ↔
    e = .unexpectedForm ∧ ∀ subject, ¬ HasSubject context subject := by
  have hform : ∀ e, subjectOf context = .error e → e = .unexpectedForm := by
    intro e h
    unfold subjectOf at h
    repeat' split at h
    all_goals cases h
    all_goals rfl
  constructor
  · intro h
    refine ⟨hform e h, fun subject hsubject => ?_⟩
    rw [subjectOf_eq_ok.2 hsubject] at h
    cases h
  · rintro ⟨rfl, hnone⟩
    cases h : subjectOf context with
    | ok subject => exact absurd (subjectOf_eq_ok.1 h) (hnone subject)
    | error e => rw [hform e h]

/-! ### Entries -/

/-- Whether a query asks for anything. -/
def Asks (q : Query) : Prop := q.level ≠ "" ∨ q.type ≠ "" ∨ q.subject ≠ ""

/-- The context of an entry with some fields. -/
def contextOf (fields : List (String × Json)) : Json := (fields.lookup "context").getD .null

/-- An entry has the level that is asked for. -/
def WantsLevel (q : Query) (j : Json) : Prop :=
  q.level ≠ "" → j.field? "level" = some (.text q.level)

/-- An entry has the type that is asked for. -/
def WantsType (q : Query) (j : Json) : Prop :=
  q.type ≠ "" → j.field? "event_type" = some (.text q.type)

/-- An entry is about the subject that is asked for. -/
def WantsSubject (q : Query) (j : Json) : Prop :=
  q.subject ≠ "" → ∃ fields, j = .object fields ∧
    HasSubject (contextOf fields) (some (upper q.subject))

/-- An entry has all that a query asks for. -/
def Wants (q : Query) (j : Json) : Prop := q.WantsLevel j ∧ q.WantsType j ∧ q.WantsSubject j

/-- A query can be put to an entry: if it asks for anything, the entry is an object, and if it comes
to the subject, there is one to be told or none. -/
def Suits (q : Query) (j : Json) : Prop :=
  q.Asks → ∃ fields, j = .object fields ∧ (q.WantsLevel j → q.WantsType j → q.subject ≠ "" →
    ∃ subject, HasSubject (contextOf fields) subject)

section Entry

variable {q : Query} {j : Json} {e : ReadError}

theorem demand_eq_true {wanted : String} {condition rest : Except ReadError Bool} :
    demand wanted condition rest = .ok true ↔
      (wanted ≠ "" → condition = .ok true) ∧ rest = .ok true := by
  unfold demand
  by_cases h : wanted = ""
  · simp [h]
  · rw [if_neg (by simpa using h)]
    split <;> simp_all

theorem demand_eq_error {wanted : String} {condition rest : Except ReadError Bool} :
    demand wanted condition rest = .error e ↔ wanted ≠ "" ∧ condition = .error e ∨
      (wanted ≠ "" → condition = .ok true) ∧ rest = .error e := by
  unfold demand
  by_cases h : wanted = ""
  · simp [h]
  · rw [if_neg (by simpa using h)]
    split <;> simp_all

theorem fieldIs_eq_true {name wanted : String} :
    fieldIs name wanted j = .ok true ↔ j.field? name = some (.text wanted) := by
  cases j with
  | object fields =>
    simp only [fieldIs, Json.field?]
    split <;> simp_all
  | _ => simp [fieldIs, Json.field?]

theorem fieldIs_eq_error {name wanted : String} : fieldIs name wanted j = .error e ↔
    e = .unexpectedForm ∧ ∀ fields, j ≠ .object fields := by
  cases j with
  | object fields =>
    simp only [fieldIs]
    split <;> simp
  | _ => simp [fieldIs, eq_comm]

theorem isAbout_eq_true {subject : String} : isAbout subject j = .ok true ↔
    ∃ fields, j = .object fields ∧ HasSubject (contextOf fields) (some (upper subject)) := by
  cases j with
  | object fields =>
    rw [isAbout, map_eq_ok]
    simp [subjectOf_eq_ok, contextOf]
  | _ => simp [isAbout]

theorem isAbout_eq_error {subject : String} : isAbout subject j = .error e ↔
    e = .unexpectedForm ∧ ∀ fields, j = .object fields →
      ∀ subject, ¬ HasSubject (contextOf fields) subject := by
  cases j with
  | object fields =>
    rw [isAbout, map_eq_error]
    simp [subjectOf_eq_error, contextOf]
  | _ => simp [isAbout, eq_comm]

theorem accepts_eq_true : q.accepts j = .ok true ↔ q.Wants j := by
  rw [accepts, demand_eq_true, demand_eq_true, demand_eq_true, fieldIs_eq_true, fieldIs_eq_true,
    isAbout_eq_true, Wants, WantsLevel, WantsType, WantsSubject]
  simp

/-- A query that asks for nothing can be put to everything and wants everything. -/
theorem wants_of_not_asks (h : ¬ q.Asks) (j : Json) : q.Wants j := by
  simp only [Asks, not_or, not_not] at h
  exact ⟨absurd h.1, absurd h.2.1, absurd h.2.2⟩

theorem suits_object {fields : List (String × Json)} : q.Suits (.object fields) ↔
    (q.WantsLevel (.object fields) → q.WantsType (.object fields) → q.subject ≠ "" →
      ∃ subject, HasSubject (contextOf fields) subject) := by
  constructor
  · intro h hlevel htype hsubject
    obtain ⟨fields', heq, hsuits⟩ := h (.inr (.inr hsubject))
    cases heq
    exact hsuits hlevel htype hsubject
  · exact fun h _ => ⟨fields, rfl, h⟩

theorem suits_of_not_object (h : ∀ fields, j ≠ .object fields) : q.Suits j ↔ ¬ q.Asks :=
  ⟨fun hsuits hasks => (hsuits hasks).elim fun fields hfields => h fields hfields.1,
    fun hnot hasks => absurd hasks hnot⟩

theorem field?_of_not_object (h : ∀ fields, j ≠ .object fields) (name : String) :
    j.field? name = none := by
  cases j with
  | object fields => exact absurd rfl (h fields)
  | _ => rfl

/-- A query fails at the entries that it cannot be put to. -/
theorem accepts_eq_error : q.accepts j = .error e ↔ e = .unexpectedForm ∧ ¬ q.Suits j := by
  rw [accepts, demand_eq_error, demand_eq_error, demand_eq_error, fieldIs_eq_true, fieldIs_eq_true,
    fieldIs_eq_error, fieldIs_eq_error, isAbout_eq_error]
  by_cases h : ∃ fields, j = .object fields
  · -- The fields of an object can be looked at, so only its context is in the way.
    obtain ⟨fields, rfl⟩ := h
    rw [suits_object]
    simp only [WantsLevel, WantsType]
    simp
    tauto
  · rw [not_exists] at h
    rw [suits_of_not_object h, field?_of_not_object h, field?_of_not_object h, Asks]
    simp [h]
    tauto

end Entry

/-! ### Rows of entries -/

instance (q : Query) (j : Json) : Decidable (q.Wants j) :=
  decidable_of_iff (q.accepts j = .ok true) accepts_eq_true

/-- How many entries a query has room for: one at least, and no more than are ever given. -/
def room (q : Query) : Nat := max 1 (min q.limit entryLimit).toNat

section Row

variable {q : Query} {all answer : List Json} {taken : Nat} {e : ReadError}

theorem accepts_cases (q : Query) (j : Json) : q.accepts j = .ok true ∧ q.Wants j ∨
    q.accepts j = .ok false ∧ ¬ q.Wants j ∧ q.Suits j ∨
    q.accepts j = .error .unexpectedForm ∧ ¬ q.Wants j ∧ ¬ q.Suits j := by
  have hwants := accepts_eq_true (q := q) (j := j)
  have hfails (e : ReadError) := accepts_eq_error (q := q) (j := j) (e := e)
  cases h : q.accepts j with
  | error e =>
    obtain ⟨rfl, hsuits⟩ := (hfails e).1 h
    rw [h] at hwants
    exact .inr (.inr ⟨rfl, fun hw => (nomatch hwants.2 hw), hsuits⟩)
  | ok b =>
    have hsuits : q.Suits j := by
      by_contra hnot
      cases h.symm.trans ((hfails .unexpectedForm).2 ⟨rfl, hnot⟩)
    rw [h] at hwants
    cases b with
    | true => exact .inl ⟨rfl, hwants.1 rfl⟩
    | false => exact .inr (.inl ⟨rfl, fun hw => (nomatch hwants.2 hw), hsuits⟩)

theorem suits_of_wants {j : Json} (h : q.Wants j) : q.Suits j := by
  by_contra hnot
  cases (accepts_eq_true.2 h).symm.trans (accepts_eq_error.2 ⟨rfl, hnot⟩)

theorem min_le_iff_room : min q.limit entryLimit ≤ (taken + 1 : Nat) ↔ q.room ≤ taken + 1 := by
  unfold room
  omega

/-- Behind some entries that are taken, a query takes those that it wants until there is no more
room. -/
theorem selectAfter_eq_ok (htaken : taken < q.room) (h : q.selectAfter taken all = .ok answer) :
    answer = (all.filter (q.Wants ·)).take (q.room - taken) := by
  induction all generalizing taken answer with
  | nil =>
    cases h
    exact List.take_nil.symm
  | cons j rest ih =>
    rw [selectAfter] at h
    obtain ⟨haccepts, hwants⟩ | ⟨haccepts, hwants, -⟩ | ⟨haccepts, -⟩ := q.accepts_cases j
    · rw [List.filter_cons_of_pos (by simpa using hwants)]
      simp only [haccepts, min_le_iff_room] at h
      split at h
      · -- This was the last one that there was room for.
        cases h
        have hroom : q.room - taken = 1 := by omega
        rw [hroom]
        rfl
      · obtain ⟨more, hmore, rfl⟩ := map_eq_ok.1 h
        have hroom : q.room - taken = (q.room - (taken + 1)) + 1 := by omega
        rw [hroom, List.take_succ_cons, ← ih (by omega) hmore]
    · rw [List.filter_cons_of_neg (by simpa using hwants)]
      simp only [haccepts] at h
      exact ih htaken h
    · simp only [haccepts] at h
      cases h

/-- An entry of a row is the first one, or one of the others with the first one before it. -/
theorem exists_split_cons {α : Type} {P : List α → α → Prop} {a : α} {l : List α} :
    (∃ before b after, a :: l = before ++ b :: after ∧ P before b) ↔
      P [] a ∨ ∃ before b after, l = before ++ b :: after ∧ P (a :: before) b := by
  constructor
  · rintro ⟨before, b, after, heq, h⟩
    cases before with
    | nil =>
      cases heq
      exact .inl h
    | cons c before =>
      cases heq
      exact .inr ⟨before, b, after, rfl, h⟩
  · rintro (h | ⟨before, b, after, rfl, h⟩)
    · exact ⟨[], a, l, rfl, h⟩
    · exact ⟨a :: before, b, after, rfl, h⟩

/-- Behind some entries that are taken, a query fails at the first entry that it cannot be put to,
if there is room for more when it comes to it. -/
theorem selectAfter_eq_error (htaken : taken < q.room) : q.selectAfter taken all = .error e ↔
    e = .unexpectedForm ∧ ∃ before j after, all = before ++ j :: after ∧
      (∀ k ∈ before, q.Suits k) ∧ taken + (before.filter (q.Wants ·)).length < q.room ∧
      ¬ q.Suits j := by
  induction all generalizing taken with
  | nil => simp [selectAfter]
  | cons j rest ih =>
    rw [selectAfter, exists_split_cons]
    obtain ⟨haccepts, hwants⟩ | ⟨haccepts, hwants, hsuits⟩ | ⟨haccepts, hwants, hsuits⟩ :=
      q.accepts_cases j
    · have hsuits := suits_of_wants hwants
      simp only [haccepts, min_le_iff_room]
      split
      · simp [hsuits, hwants]
        omega
      · rw [map_eq_error, ih (by omega)]
        simp [hsuits, hwants, Nat.add_assoc, Nat.add_comm 1]
    · simp only [haccepts]
      rw [ih htaken]
      simp [hsuits, hwants]
    · simp [haccepts, hsuits, htaken, eq_comm]

/-- What a query takes from a row of entries: those that it wants, from the front of the row, as
many as it has room for. -/
theorem select_eq_ok (h : q.select all = .ok answer) :
    answer = (all.filter (q.Wants ·)).take q.room :=
  selectAfter_eq_ok (Nat.lt_of_lt_of_le Nat.zero_lt_one (Nat.le_max_left _ _)) h

/-- A query fails at the first entry of a row that it cannot be put to, if there is still room when
it comes to it, and for no other reason. -/
theorem select_eq_error : q.select all = .error e ↔ e = .unexpectedForm ∧
    ∃ before j after, all = before ++ j :: after ∧ (∀ k ∈ before, q.Suits k) ∧
      (before.filter (q.Wants ·)).length < q.room ∧ ¬ q.Suits j := by
  rw [select, selectAfter_eq_error (Nat.lt_of_lt_of_le Nat.zero_lt_one (Nat.le_max_left _ _))]
  simp only [Nat.zero_add]

/-- A query that can be put to all entries of a row does not fail. -/
theorem select_of_suits (h : ∀ j ∈ all, q.Suits j) :
    q.select all = .ok ((all.filter (q.Wants ·)).take q.room) := by
  cases hselect : q.select all with
  | ok answer => rw [select_eq_ok hselect]
  | error e =>
    obtain ⟨-, before, j, after, rfl, -, -, hsuits⟩ := select_eq_error.1 hselect
    exact absurd (h j (List.mem_append_right before List.mem_cons_self)) hsuits

/-- What a query takes from the beginning of a row is the beginning of what it takes from all of it.
-/
theorem select_of_prefix {first : List Json} (h : first <+: all)
    (hanswer : q.select all = .ok answer) :
    ∃ answer', q.select first = .ok answer' ∧ answer' <+: answer := by
  obtain ⟨others, rfl⟩ := h
  cases hfirst : q.select first with
  | error e =>
    obtain ⟨rfl, before, j, after, rfl, hbefore, hroom, hj⟩ := select_eq_error.1 hfirst
    have hfails : q.select (before ++ j :: after ++ others) = .error .unexpectedForm :=
      select_eq_error.2 ⟨rfl, before, j, after ++ others, by simp, hbefore, hroom, hj⟩
    cases hfails.symm.trans hanswer
  | ok answer' =>
    refine ⟨answer', rfl, ?_⟩
    rw [select_eq_ok hfirst, select_eq_ok hanswer, List.filter_append]
    exact (List.prefix_append _ _).take q.room

end Row

end Query

end FormulaBook.Log
