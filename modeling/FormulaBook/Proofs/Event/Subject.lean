import FormulaBook.Proofs.Event.RoundTrip
import FormulaBook.Proofs.Text.Uppercase

/-!
# Queries for a subject

What a query for a subject is answered by a log whose window holds lines of events only. The subject
that is asked for is put into capital letters, and that of an event is compared as it was written, so
of the events about a subject those are found that name it in capital letters. How the letters of the
query are written does not count.

* `Event.subjectValue?`, `Event.toldSubject?`: the value that names the subject of an event, and the
  subject that a reader is told;
* `Log.Query.wants_reread_iff`: when a query for a subject wants what an event is read as;
* `Sink.read_subject`: what the query is answered.
-/

namespace FormulaBook

open Text

namespace Event

/-- The value that names the subject of an event. -/
def subjectValue? (e : Event) : Option Json :=
  (e.context.lookup "formula").or (e.context.lookup "variable")

/-- The subject of an event that is written and read. -/
def toldSubject? (e : Event) : Option String :=
  e.subjectValue?.map fun j => j.finite.sorted.reread.toValue.display

variable {e : Event}

/-- A reader is told the subject of an event if that is a text in which no halves meet. -/
theorem toldSubject?_of_text {t : String} (h : e.subjectValue? = some (.text t))
    (ht : HalvesApart t) : e.toldSubject? = e.subject? := by
  have hsubject : e.subject? = e.subjectValue?.map (·.toValue.display) := rfl
  rw [hsubject, toldSubject?, h]
  exact congrArg some (joined_of_halvesApart ht)

/-- The fields of a context that is written and read, under the names that a subject stands under. -/
theorem field?_reread_context (hnames : (e.context.map Prod.fst).Nodup) {name : String}
    (hname : IsAscii name) : (Json.object e.context).finite.sorted.reread.field? name =
      (e.context.lookup name).map fun j => j.finite.sorted.reread := by
  have hfields : Json.finiteFields e.context = e.context.map fun f => (f.1, f.2.finite) :=
    Json.finiteFields_eq_map e.context
  rw [Json.finite, hfields, Json.field?_reread_sorted (by rwa [List.map_map]) hname, lookup_map_snd,
    Option.map_map]
  rfl

/-- The context that an event is read with is an object with the subject that a reader is told. -/
theorem exists_context_reread (hnames : (e.context.map Prod.fst).Nodup) : ∃ fields context,
    e.reread = .object fields ∧ Log.Query.contextOf fields = .object context ∧
      contextSubject? context = e.toldSubject? := by
  obtain ⟨fields, hfields⟩ : ∃ fields, e.reread = .object fields := ⟨_, rfl⟩
  obtain ⟨context, hcontext⟩ : ∃ context,
      (Json.object e.context).finite.sorted.reread = .object context := ⟨_, rfl⟩
  have hfound : e.reread.field? "context" = some (.object context) :=
    hcontext ▸ field?_reread rfl (by simp)
  have hread (key : String) (hkey : IsAscii key) :
      context.lookup key = (e.context.lookup key).map fun j => j.finite.sorted.reread := by
    rw [← field?_reread_context hnames hkey, hcontext]
    rfl
  rw [hfields] at hfound
  refine ⟨fields, context, hfields, congrArg (·.getD Json.null) hfound, ?_⟩
  rw [contextSubject?, hread _ (by decide), hread _ (by decide), ← Option.map_or, Option.map_map]
  rfl

end Event

namespace Log.Query

/-- The subject of an object is what stands under its keys, also if it has no fields. -/
theorem hasSubject_object {context : List (String × Json)} {subject : Option String} :
    HasSubject (.object context) subject ↔ contextSubject? context = subject := by
  rw [← subjectOf_eq_ok, subjectOf_object, Except.ok.injEq]

/-- A query for a subject and nothing else wants what an event is read as if a reader is told that
subject in capital letters. -/
theorem wants_reread_iff {subject : String} {limit : Int} {e : Event} (hsubject : subject ≠ "")
    (hnames : (e.context.map Prod.fst).Nodup) :
    Wants { subject, limit } e.reread ↔ e.toldSubject? = some (upper subject) := by
  obtain ⟨fields, context, hfields, hcontext, htold⟩ := Event.exists_context_reread hnames
  rw [hfields, ← htold]
  constructor
  · rintro ⟨-, -, hwants⟩
    obtain ⟨fields', heq, hhas⟩ := hwants hsubject
    cases heq
    rwa [hcontext, hasSubject_object] at hhas
  · intro h
    refine ⟨absurd rfl, absurd rfl, fun _ => ⟨fields, rfl, ?_⟩⟩
    rwa [hcontext, hasSubject_object]

end Log.Query

/-- A text that names a subject as it is found is the one that is asked for but for the case of the
letters, and is in capital letters itself. -/
theorem eq_upper_iff {name subject : String} :
    name = upper subject ↔ upper name = upper subject ∧ upper name = name := by
  constructor
  · rintro rfl
    exact ⟨upper_upper subject, upper_upper subject⟩
  · rintro ⟨hsubject, hname⟩
    exact hname.symm.trans hsubject

namespace Sink

variable {s : Sink} {events : List Event} {files : Files} {content : List UInt8}

/-- **A query for a subject.** If the window of a log holds the lines of some events, then a query for
a subject is answered with the latest of the events whose subject is the text that is asked for in
capital letters, the latest first and as many as it has room for. These are the events whose subject
differs from that text in the case of letters only and is itself in capital letters; an event whose
subject is not is never found. Queries that differ in the case of letters only have one answer. -/
theorem read_subject (hcontent : s.content files = .ok content)
    (hwindow : Log.window s.window content = events.flatMap Event.line)
    (hwritable : ∀ e ∈ events, e.isTooDeep = false ∧ e.hasLongNumber = false)
    (hnames : ∀ e ∈ events, (e.context.map Prod.fst).Nodup)
    {subject : String} (hsubject : subject ≠ "") (limit : Int) :
    let q : Log.Query := { subject, limit }
    let found := events.reverse.filter fun e => e.toldSubject? = some (upper subject)
    s.read q files = .ok ((found.take q.room).map Event.reread) ∧
    (∀ e ∈ events, e ∈ found ↔ ∃ name, e.toldSubject? = some name ∧ upper name = upper subject ∧
      upper name = name) ∧
    (∀ subject', upper subject' = upper subject →
      s.read { subject := subject', limit } files = s.read q files) ∧
    ∀ e ∈ events, (∀ t, e.subjectValue? = some (.text t) → HalvesApart t →
      e.toldSubject? = e.subject?) ∧ (e.toJson.Legible → e.reread = e.toJson.sorted) := by
  have hread {subject : String} (hsubject : subject ≠ "") :
      s.read { subject, limit } files = .ok (((events.reverse.filter fun e =>
        e.toldSubject? = some (upper subject)).take
          (Log.Query.room { subject, limit })).map Event.reread) := by
    have hwants : ∀ e ∈ events.reverse,
        ((fun j => decide (Log.Query.Wants { subject, limit } j)) ∘ Event.reread) e =
          decide (e.toldSubject? = some (upper subject)) :=
      fun e he => decide_eq_decide.2
        (Log.Query.wants_reread_iff hsubject (hnames e (List.mem_reverse.1 he)))
    rw [read_of_window hcontent hwindow hwritable, List.filter_map, ← List.map_take,
      List.filter_congr hwants]
  intro q found
  refine ⟨hread hsubject, fun e he => ?_, fun subject' hsame => ?_, fun e _ =>
    ⟨fun t => e.toldSubject?_of_text, e.reread_of_legible⟩⟩
  · rw [List.mem_filter, List.mem_reverse]
    simp only [he, true_and, decide_eq_true_eq, ← eq_upper_iff, exists_eq_right]
  · have hsubject' : subject' ≠ "" := by
      rwa [Ne, ← upper_eq_empty, hsame, upper_eq_empty]
    rw [hread hsubject', hread hsubject, hsame]
    rfl

/-- The events about two formulas whose names differ in the case of letters only. -/
def mixedCase : List Event := [executed "bonus", executed "BONUS"]

/-- The lines of these events. -/
def mixedOctets : List UInt8 := mixedCase.flatMap Event.line

/-- The event about the name in capital letters is found, and the other one is not, also where the
query is written as its name is. -/
theorem read_subject_mixedCase :
    (bookLog mixedOctets.length).read { subject := "bonus" } (logFiles mixedOctets) =
      .ok [(executed "BONUS").toJson.sorted] ∧
    (bookLog mixedOctets.length).read { subject := "Bonus" } (logFiles mixedOctets) =
      (bookLog mixedOctets.length).read { subject := "bonus" } (logFiles mixedOctets) := by
  have hwindow : Log.window (bookLog mixedOctets.length).window mixedOctets = mixedOctets :=
    Log.window_of_le (Int.le_refl _)
  have hwritable : ∀ e ∈ mixedCase, e.isTooDeep = false ∧ e.hasLongNumber = false := by
    decide +kernel
  have hnames : ∀ e ∈ mixedCase, (e.context.map Prod.fst).Nodup := by decide
  obtain ⟨hread, -, hsame, -⟩ := read_subject (content_logFiles _ _) hwindow hwritable hnames
    (show "bonus" ≠ "" by decide) 200
  have hupper : upper "bonus" = "BONUS" ∧ upper "Bonus" = "BONUS" := by decide +kernel
  have htold : (executed "BONUS").toldSubject? = some "BONUS" ∧
      (executed "bonus").toldSubject? ≠ some "BONUS" := by decide +kernel
  have hfound : mixedCase.reverse.filter (fun e => e.toldSubject? = some (upper "bonus")) =
      [executed "BONUS"] := by
    simp [mixedCase, hupper, htold]
  have hlegible := legible_executed (halvesApart_of_ascii (show IsAscii "BONUS" by decide))
  refine ⟨?_, hsame "Bonus" (hupper.2.trans hupper.1.symm)⟩
  rw [hfound] at hread
  rw [← Event.reread_of_legible hlegible]
  exact hread

end Sink

end FormulaBook
