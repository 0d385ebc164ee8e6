import FormulaBook.Proofs.Event.Lines
import FormulaBook.Proofs.Event.Query
import FormulaBook.Proofs.Event.Writing

/-!
# Events that are read back

The events that were written to a log are read back as they were, the latest first, as long as the
log is not larger than the window of the reader and there are not more of them than are asked for.

* `Event.legible_toJson`: what must hold of the texts and the context of an event;
* `Event.suits_reread`: every query can be put to an event;
* `Sink.read_of_window`: the answer of a log whose window holds whole lines;
* `Sink.read_legible`: the answer if the events are legible and all are asked for;
* `Sink.read_writes`: the events that were written are read back.
-/

namespace FormulaBook

open Text

/-- An event is legible if its context is and if no halves of pairs meet in its texts. -/
theorem Event.legible_toJson {e : Event} (htime : HalvesApart e.time)
    (hmessage : HalvesApart e.message) (hcode : ∀ code ∈ e.errorCode, HalvesApart code)
    (hcontext : (Json.object e.context).finite.Legible) : e.toJson.Legible := by
  have herror : (Json.ofText? e.errorCode).Legible := by
    cases hc : e.errorCode with
    | none => exact .null
    | some code => exact .text (hcode code hc)
  obtain ⟨hnodup, hascii⟩ := e.names_toJson rfl
  refine .object hnodup (fun f hf => halvesApart_of_ascii (hascii f hf)) ?_
  simp only [List.forall_mem_cons]
  exact ⟨.int _, .text htime, .text (halvesApart_level _), .text (halvesApart_type _), hcontext,
    .text hmessage, herror, by simp⟩

/-- Every query can be put to what an event is read as. -/
theorem Event.suits_reread (q : Log.Query) (e : Event) : q.Suits e.reread := by
  have hcontext : e.reread.field? "context" = some (Json.object e.context).finite.sorted.reread :=
    field?_reread rfl (by simp)
  obtain ⟨fields, hfields⟩ : ∃ fields, e.reread = .object fields := ⟨_, rfl⟩
  rw [hfields] at hcontext ⊢
  refine Log.Query.suits_object.2 fun _ _ _ => ?_
  have hfound : Log.Query.contextOf fields = (Json.object e.context).finite.sorted.reread :=
    congrArg (·.getD Json.null) hcontext
  rw [hfound]
  exact ⟨_, .object _⟩

/-- A window that is large enough holds the whole log. -/
theorem Log.window_of_le {size : Int} {content : List UInt8} (h : (content.length : Int) ≤ size) :
    Log.window size content = content := by
  have hstart : (content.length - size).toNat = 0 := by omega
  unfold Log.window
  rw [hstart]
  rfl

namespace Sink

variable {s : Sink} {events : List Event} {files files' : Files} {limit : Int}

theorem read_eq {content : List UInt8} (hcontent : s.content files = .ok content)
    (q : Log.Query) : s.read q files = (Log.read s.window q content).mapError .log := by
  rw [read, hcontent]
  rfl

/-- If the window of a log holds the lines of some events, then a query is answered with those that
it wants, the latest first and as many as it has room for. -/
theorem read_of_window {content : List UInt8} (hcontent : s.content files = .ok content)
    (hwindow : Log.window s.window content = events.flatMap Event.line)
    (hwritable : ∀ e ∈ events, e.isTooDeep = false ∧ e.hasLongNumber = false) (q : Log.Query) :
    s.read q files =
      .ok (((events.reverse.map Event.reread).filter (q.Wants ·)).take q.room) := by
  rw [read_eq hcontent, mapError_eq_ok, Log.read, hwindow, Log.entries_flatMap_line hwritable]
  show q.select (events.map Event.reread).reverse = _
  rw [← List.map_reverse]
  exact Log.Query.select_of_suits (List.forall_mem_map.2 fun e _ => e.suits_reread q)

/-- If the window of a log holds the lines of some legible events, then their objects are the answer
to a query for everything. -/
theorem read_legible {content : List UInt8} (hcontent : s.content files = .ok content)
    (hwindow : Log.window s.window content = events.flatMap Event.line)
    (hlegible : ∀ e ∈ events, e.toJson.Legible)
    (hwritable : ∀ e ∈ events, e.isTooDeep = false ∧ e.hasLongNumber = false)
    (hcount : (events.length : Int) ≤ Log.entryLimit) (hlimit : (events.length : Int) ≤ limit) :
    s.read { limit } files = .ok (events.reverse.map (·.toJson.sorted)) := by
  have hroom : events.length ≤ Log.Query.room { limit } := by
    unfold Log.Query.room
    dsimp only
    omega
  have hall : ∀ j ∈ events.reverse.map Event.reread,
      decide (Log.Query.Wants { limit } j) = true :=
    fun j _ => decide_eq_true (Log.Query.wants_of_not_asks (by simp [Log.Query.Asks]) j)
  rw [read_of_window hcontent hwindow hwritable, List.filter_eq_self.2 hall,
    List.take_of_length_le (by simpa using hroom)]
  exact congrArg Except.ok (List.map_congr_left fun e he =>
    Event.reread_of_legible (hlegible e (List.mem_reverse.1 he)))

/-- **The event log gives back what was written.** If some events are written to a log that is not
there before, and the log is then not larger than the window, a query for everything is answered
with the objects of these events, the latest first and each with its fields in the order of their
names. -/
theorem read_writes (habsent : files.has s.path = false)
    (hwrites : events.foldlM (fun files e => s.write e files) files = .ok files')
    (hlegible : ∀ e ∈ events, e.toJson.Legible)
    (hsize : ∀ content, s.content files' = .ok content → (content.length : Int) ≤ s.window)
    (hcount : (events.length : Int) ≤ Log.entryLimit) (hlimit : (events.length : Int) ≤ limit) :
    s.read { limit } files' = .ok (events.reverse.map (·.toJson.sorted)) ∧
      ∀ e ∈ events, e.toJson.sorted.Alike e.toJson := by
  have hcontent := content_writes hwrites (content_of_absent habsent)
  rw [List.nil_append] at hcontent
  have hwindow := Log.window_of_le (hsize _ hcontent)
  exact ⟨read_legible hcontent hwindow hlegible (writable_of_writes hwrites) hcount hlimit,
    fun e he => Json.alike_sorted (hlegible e he)⟩

/-- An event with line ends of all kinds, characters outside ASCII and nested values. -/
def scrambled : Event where
  time := "2024-05-01T12:00:00.000000Z"
  level := .warning
  type := .formulaFailed
  context := [("formula", .text "RATE\u2028"), ("kind", .text "😀\x00"),
    ("values", .list [.float 1.5, .int (-3), .null, .bool true]),
    ("inner", .object [("\x85", .text "\"\\"), ("", .object [])])]
  message := "one\ntwo\r\nthree\x1E"
  errorCode := some executionErrorCode

theorem legible_scrambled : scrambled.toJson.Legible := by
  have hplain {t : String} (h : holdsHalf t = false) : HalvesApart t :=
    halvesApart_of_not_holdsHalf h
  have hfinite : (Json.object scrambled.context).finite = .object scrambled.context := by
    have hnumber : (1.5 : Float).isFinite = true := by decide +kernel
    simp [scrambled, Json.finite, Json.finiteFields, Json.finiteItems, hnumber]
  have hnames : ∀ f ∈ scrambled.context, HalvesApart f.1 := by
    intro f hf
    refine hplain ?_
    have hall : ∀ name ∈ scrambled.context.map Prod.fst, holdsHalf name = false := by
      decide +kernel
    exact hall f.1 (List.mem_map_of_mem hf)
  have hvalues : (Json.list [.float 1.5, .int (-3), .null, .bool true]).Legible := by
    refine .list ?_
    simp only [List.forall_mem_cons]
    exact ⟨.float (by decide +kernel), .int _, .null, .bool _, by simp⟩
  have hinner : (Json.object [("\x85", .text "\"\\"), ("", .object [])]).Legible := by
    refine .object (by decide) ?_ ?_
    · simp only [List.forall_mem_cons]
      exact ⟨hplain (by decide +kernel), hplain (by decide +kernel), by simp⟩
    · simp only [List.forall_mem_cons]
      exact ⟨.text (hplain (by decide +kernel)), .object (by simp) (by simp) (by simp), by simp⟩
  refine Event.legible_toJson (hplain (by decide +kernel)) (hplain (by decide +kernel)) ?_ ?_
  · rintro code ⟨⟩
    exact hplain (by decide +kernel)
  · rw [hfinite]
    refine .object (by decide) hnames ?_
    simp only [scrambled, List.forall_mem_cons]
    exact ⟨.text (hplain (by decide +kernel)), .text (hplain (by decide +kernel)), hvalues, hinner,
      by simp⟩

/-- The log of a book. -/
def bookLog (window : Int) : Sink := { directory := ["", "book"], window }

/-- The files of a book whose log has some octets. -/
def logFiles (octets : List UInt8) : Files := ⟨[((bookLog 0).path, .file octets)]⟩

theorem content_logFiles (window : Int) (octets : List UInt8) :
    (bookLog window).content (logFiles octets) = .ok octets :=
  content_eq_ok.2 (.inl List.lookup_cons_self)

/-- An event about a formula. -/
def executed (formula : String) : Event where
  time := "2024-05-01T12:00:00Z"
  level := .info
  type := .formulaExecuted
  context := [("formula", .text formula)]

theorem legible_executed {formula : String} (h : HalvesApart formula) :
    (executed formula).toJson.Legible := by
  have hname : HalvesApart "formula" := halvesApart_of_ascii (by decide)
  have htime : HalvesApart "2024-05-01T12:00:00Z" := halvesApart_of_ascii (by decide)
  have hmessage : HalvesApart "" := halvesApart_of_ascii (by decide)
  refine Event.legible_toJson htime hmessage (by rintro code ⟨⟩) (.object ?_ ?_ ?_)
  · exact List.nodup_singleton "formula"
  · exact List.forall_mem_singleton.2 hname
  · exact List.forall_mem_singleton.2 (.text h)

/-- Two events are written to the log of a book, whatever its window is. -/
theorem exists_writes_bookLog (window : Int) : ∃ files',
    [scrambled, scrambled].foldlM (fun files e => (bookLog window).write e files) {} =
      .ok files' := by
  have hsome : ([scrambled, scrambled].foldlM (fun files e => (bookLog 0).write e files)
      {}).toOption.isSome = true := by
    decide +kernel
  obtain ⟨files', hfiles⟩ := Option.isSome_iff_exists.1 hsome
  exact ⟨files', mem_toOption.1 hfiles⟩

/-- A window that just holds both events. -/
def bothLines : Int := ([scrambled, scrambled].flatMap Event.line).length

theorem read_writes_scrambled : ∃ files',
    [scrambled, scrambled].foldlM (fun files e => (bookLog bothLines).write e files) {} =
      .ok files' ∧
    (bookLog bothLines).read { limit := 2 } files' =
      .ok [scrambled.toJson.sorted, scrambled.toJson.sorted] := by
  obtain ⟨files', hwrites⟩ := exists_writes_bookLog bothLines
  have hlegible : ∀ e ∈ [scrambled, scrambled], e.toJson.Legible := by
    simp [legible_scrambled]
  have hsize : ∀ content, (bookLog bothLines).content files' = .ok content →
      (content.length : Int) ≤ (bookLog bothLines).window := by
    intro content hcontent
    rw [content_writes hwrites (content_of_absent rfl)] at hcontent
    cases hcontent
    exact Int.le_refl _
  exact ⟨files', hwrites,
    (read_writes rfl hwrites hlegible hsize (by decide) (by decide)).1⟩

end Sink

end FormulaBook
