import FormulaBook.Proofs.Event.RoundTrip

/-!
# Queries for a level or a type

What a query for a level, a type or both is answered by a log whose window holds lines of events
only: those of the events that have the level and the type, the latest first and no more than there
is room for. Whether there is room is looked at behind an entry that is given, so one is given also
where none was to be given.

* `Log.Query.Fits`: the events with the level and the type that a query asks for;
* `Log.Query.wants_reread`: a query wants what these are read as;
* `Sink.read_filter`: what the query is answered.
-/

namespace FormulaBook

namespace Log.Query

/-- An event has the level and the type that a query asks for, if it asks for them. -/
def Fits (q : Query) (e : Event) : Prop :=
  (q.level = "" ∨ e.level.name = q.level) ∧ (q.type = "" ∨ e.type.name = q.type)

instance (q : Query) (e : Event) : Decidable (q.Fits e) :=
  inferInstanceAs (Decidable (_ ∧ _))

/-- A query that asks for no subject wants what the events that fit it are read as. -/
theorem wants_reread {q : Query} (h : q.subject = "") (e : Event) :
    q.Wants e.reread ↔ q.Fits e := by
  rw [Wants, WantsLevel, WantsType, WantsSubject, Fits, e.level_reread, e.type_reread,
    Option.some.injEq, Option.some.injEq, Json.text.injEq, Json.text.injEq]
  constructor
  · rintro ⟨hlevel, htype, -⟩
    exact ⟨or_iff_not_imp_left.2 hlevel, or_iff_not_imp_left.2 htype⟩
  · rintro ⟨hlevel, htype⟩
    exact ⟨or_iff_not_imp_left.1 hlevel, or_iff_not_imp_left.1 htype, absurd h⟩

end Log.Query

namespace Sink

variable {s : Sink} {events : List Event} {files : Files} {content : List UInt8}

/-- **A query filters, and then it takes.** If the window of a log holds the lines of some events,
then a query for a level, a type, both or neither is answered with the latest of the events that fit
it, the latest first. It is given as many of them as it has room for, so no more than it asks for,
but one if it asks for none or for less than none. Each event is given as its line is read, which is
its object if it is legible. -/
theorem read_filter (hcontent : s.content files = .ok content)
    (hwindow : Log.window s.window content = events.flatMap Event.line)
    (hwritable : ∀ e ∈ events, e.isTooDeep = false ∧ e.hasLongNumber = false)
    (level type : String) (limit : Int) :
    let q : Log.Query := { level, type, limit }
    let found := events.reverse.filter (q.Fits ·)
    (1 ≤ limit →
      s.read q files = .ok ((found.take (min limit Log.entryLimit).toNat).map Event.reread) ∧
      ∀ answer, s.read q files = .ok answer → (answer.length : Int) ≤ limit) ∧
    (limit ≤ 0 → s.read q files = .ok ((found.take 1).map Event.reread)) ∧
    ∀ e ∈ events, e.toJson.Legible → e.reread = e.toJson.sorted := by
  intro q found
  have hread : s.read q files = .ok ((found.take q.room).map Event.reread) := by
    rw [read_of_window hcontent hwindow hwritable q, List.filter_map, ← List.map_take]
    have hfits : ∀ e ∈ events.reverse,
        ((fun j => decide (q.Wants j)) ∘ Event.reread) e = decide (q.Fits e) :=
      fun e _ => decide_eq_decide.2 (Log.Query.wants_reread rfl e)
    rw [List.filter_congr hfits]
  have hroom : q.room = max 1 (min limit Log.entryLimit).toNat := rfl
  refine ⟨fun hlimit => ⟨?_, fun answer hanswer => ?_⟩, fun hlimit => ?_,
    fun e _ => e.reread_of_legible⟩
  · have hpos : (1 : Int) ≤ Log.entryLimit := by decide
    rw [hread, hroom, Nat.max_eq_right (by omega)]
  · cases hread.symm.trans hanswer
    rw [List.length_map]
    have := List.length_take_le q.room found
    omega
  · rw [hread, hroom, Nat.max_eq_left (by omega)]

/-- The later of two events is given where one event is asked for, and also where none is. -/
theorem read_filter_scrambled : ∃ files',
    [scrambled, scrambled].foldlM (fun files e => (bookLog bothLines).write e files) {} =
      .ok files' ∧
    (bookLog bothLines).read { level := "warning", limit := 1 } files' =
      .ok [scrambled.toJson.sorted] ∧
    (bookLog bothLines).read { level := "warning", limit := 0 } files' =
      .ok [scrambled.toJson.sorted] := by
  obtain ⟨files', hwrites⟩ := exists_writes_bookLog bothLines
  have hcontent := content_writes hwrites (content_of_absent rfl)
  have hwindow : Log.window (bookLog bothLines).window _ = _ :=
    Log.window_of_le (Int.le_refl ([scrambled, scrambled].flatMap Event.line).length)
  have hread := read_filter hcontent hwindow (writable_of_writes hwrites) "warning" ""
  have hlegible := scrambled.reread_of_legible legible_scrambled
  refine ⟨files', hwrites, ?_, ?_⟩
  · rw [((hread 1).1 (by decide)).1, ← hlegible]
    rfl
  · rw [(hread 0).2.1 (by decide), ← hlegible]
    rfl

end Sink

end FormulaBook
