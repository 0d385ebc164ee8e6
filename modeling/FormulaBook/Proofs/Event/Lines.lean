import FormulaBook.Event.Log
import FormulaBook.Proofs.Json.Order
import FormulaBook.Proofs.Outcome

/-!
# The lines of a log

An event is written on one line in printable ASCII characters, so whatever its texts hold, the line
feed after it is the only character that ends a line. The lines of a row of events are read as
objects, and as those that were written if the events are legible.

* `Event.body`, `Event.line_eq`, `Event.length_line`: the characters of an event, and its line;
* `lines_flatMap_line`: the lines of a row of events;
* `Event.reread`, `Event.reread_of_legible`: what the line of an event is read as;
* `Event.depth_toJson`, `Event.parse_body`: an event that is not too deep is read;
* `Event.level_reread`, `Event.type_reread`: whatever its texts hold, its level and its type are
  read;
* `entries_flatMap_line`: the entries of a row of events.
-/

namespace FormulaBook

open Text

namespace Event

/-- The characters of an event on its line. -/
def body (e : Event) : List Char := e.toJson.sorted.render.toList

theorem isPlain_of_mem_body (e : Event) : ∀ c ∈ e.body, isPlain c = true :=
  Json.isPlain_of_mem_render e.toJson.sorted

/-- The line of an event is that of its characters. -/
theorem line_eq (e : Event) : e.line = asciiOctets (e.body ++ ['\n']) := by
  have hchars : (e.toJson.sorted.render ++ "\n").toList = e.body ++ ['\n'] :=
    String.toList_append
  rw [line, octets_of_ascii, hchars]
  rw [hchars]
  refine List.forall_mem_append.2 ⟨fun c hc => ?_, List.forall_mem_singleton.2 (by decide)⟩
  have hplain := isPlain_iff.1 (e.isPlain_of_mem_body c hc)
  omega

/-- An event is as long on its line as in any order of its fields. -/
theorem length_body (e : Event) : e.body.length = e.toJson.render.toList.length :=
  Json.length_render_sorted _

/-- A line is as long as its event and the line feed. -/
theorem length_line (e : Event) : e.line.length = e.toJson.render.toList.length + 1 := by
  rw [line_eq, asciiOctets, List.length_map, List.length_append, length_body]
  rfl

/-- The name of a field of an event is no lexeme without its first double quote. -/
theorem exists_name {e : Event} {fields : List (String × Json)} (h : e.toJson = .object fields)
    {name : String} (hname : name ∈ fields.map Prod.fst) (after : List Char) :
    ∃ c tail, (Json.renderText name).toList ++ after = '"' :: c :: tail ∧
      Json.isBlank c = false ∧ Json.lexeme? (c :: tail) = none := by
  have hplain : ∀ name ∈ ["schema_version", "ts", "level", "event_type", "context", "message",
      "error_code"], (Json.renderText name).toList = '"' :: (name.toList ++ ['"']) := by
    decide +kernel
  cases h
  rw [hplain name hname]
  simp only [List.map_cons, List.map_nil, List.mem_cons, List.not_mem_nil, or_false] at hname
  obtain rfl | rfl | rfl | rfl | rfl | rfl | rfl := hname
  all_goals exact ⟨_, _, rfl, rfl, rfl⟩

/-- An event begins with a brace and the name of a field. -/
theorem exists_body (e : Event) : ∃ c tail, e.body = '\x7b' :: '"' :: c :: tail ∧
    Json.isBlank c = false ∧ Json.lexeme? (c :: tail) = none := by
  obtain ⟨fields, hsorted, hperm⟩ := Json.sorted_object _
  rw [body, toJson, hsorted, Json.toList_render_object]
  cases fields with
  | nil => simpa using hperm.length_eq
  | cons f fields =>
    have hmem := (Json.map_fst_sorted hperm).mem_iff.1 List.mem_cons_self
    obtain ⟨c, tail, hchars, hname⟩ := exists_name rfl hmem
      (':' :: ' ' :: f.2.render.toList ++
        (fields.map Json.fieldChars).flatMap ([',', ' '] ++ ·) ++ ['\x7d'])
    refine ⟨c, tail, ?_, hname⟩
    rw [← hchars]
    simp [Json.rowChars, Json.fieldChars]

/-- The containers of an event that is not too deep are not too deep to be read. -/
theorem depth_toJson {e : Event} (h : e.isTooDeep = false) : e.toJson.depth ≤ Json.nestingLimit := by
  have hcontext : Json.fieldsDepth e.context ≤ depthLimit := by
    simpa [isTooDeep] using h
  have hfinite := Json.depth_finite (.object e.context)
  have hcode : (Json.ofText? e.errorCode).depth ≤ 1 := by
    cases e.errorCode <;> simp [Json.ofText?, Json.depth]
  rw [Json.depth] at hfinite
  have hlimit : depthLimit + 1 + 1 ≤ Json.nestingLimit := by decide
  rw [toJson, Json.depth]
  refine Nat.le_trans (Nat.add_le_add_right (Json.fieldsDepth_le.2 ?_) 1) hlimit
  simp only [List.forall_mem_cons, Json.depth]
  refine ⟨?_, ?_, ?_, ?_, ?_, ?_, ?_, by simp⟩
  all_goals omega

/-- The object that the line of an event is read as. -/
def reread (e : Event) : Json := e.toJson.sorted.reread

/-- A legible event is read as its object. -/
theorem reread_of_legible {e : Event} (h : e.toJson.Legible) : e.reread = e.toJson.sorted :=
  Json.reread_of_legible h.sorted

/-- An event that was written is read. -/
theorem parse_body {e : Event} (hdeep : e.isTooDeep = false) (hlong : e.hasLongNumber = false) :
    Json.parse e.body = .ok e.reread :=
  Json.parse_render_reread (Json.hasLongNumber_sorted hlong)
    (Nat.le_trans (Json.depth_sorted e.toJson) (depth_toJson hdeep))

/-! ### Fields -/

theorem halvesApart_level (l : EventLevel) : HalvesApart l.name := by
  refine halvesApart_of_not_holdsHalf ?_
  cases l <;> decide +kernel

theorem halvesApart_type (t : EventType) : HalvesApart t.name := by
  refine halvesApart_of_not_holdsHalf ?_
  cases t <;> decide +kernel

/-- The fields of an event have different names of ASCII characters. -/
theorem names_toJson {e : Event} {fields : List (String × Json)} (h : e.toJson = .object fields) :
    (fields.map Prod.fst).Nodup ∧ ∀ f ∈ fields, IsAscii f.1 := by
  cases h
  refine ⟨by simp, ?_⟩
  simp only [List.forall_mem_cons]
  refine ⟨?_, ?_, ?_, ?_, ?_, ?_, ?_, by simp⟩
  all_goals decide

/-- A field of an event is read, whatever it holds. -/
theorem field?_reread {e : Event} {fields : List (String × Json)} (h : e.toJson = .object fields)
    {name : String} {j : Json} (hmem : (name, j) ∈ fields) :
    e.reread.field? name = some j.sorted.reread := by
  obtain ⟨hnodup, hascii⟩ := names_toJson h
  rw [reread, h, Json.field?_reread_sorted hnodup (hascii _ hmem), lookup_of_mem hnodup hmem]
  rfl

/-- A text field of an event is read as it is if no halves meet in the text. -/
theorem field?_reread_text {e : Event} {fields : List (String × Json)} (h : e.toJson = .object fields)
    {name t : String} (hmem : (name, .text t) ∈ fields) (ht : HalvesApart t) :
    e.reread.field? name = some (.text t) :=
  (field?_reread h hmem).trans (congrArg (some ∘ Json.text) (joined_of_halvesApart ht))

theorem level_reread (e : Event) : e.reread.field? "level" = some (.text e.level.name) :=
  field?_reread_text rfl (by simp) (halvesApart_level e.level)

theorem type_reread (e : Event) : e.reread.field? "event_type" = some (.text e.type.name) :=
  field?_reread_text rfl (by simp) (halvesApart_type e.type)

end Event

namespace Log

/-! ### Entries -/

theorem flatMap_line (events : List Event) : events.flatMap Event.line =
    asciiOctets ((events.map Event.body).flatMap (· ++ ['\n'])) := by
  induction events with
  | nil => rfl
  | cons e events ih =>
    rw [List.flatMap_cons, ih, Event.line_eq, List.map_cons, List.flatMap_cons]
    exact List.map_append.symm

/-- The lines of a row of events are those that were written. -/
theorem lines_flatMap_line (events : List Event) :
    lines (Utf8.decode (events.flatMap Event.line)) = events.map Event.body := by
  have hplain : ∀ l ∈ events.map Event.body, ∀ c ∈ l, isPlain c = true :=
    List.forall_mem_map.2 fun e _ => e.isPlain_of_mem_body
  rw [flatMap_line, decode_asciiOctets, lines_flatMap]
  · exact fun l hl c hc => not_isLineBreak_of_isPlain (hplain l hl c hc)
  · refine List.forall_mem_flatMap.2 fun l hl => List.forall_mem_append.2
      ⟨fun c hc => ?_, List.forall_mem_singleton.2 (by decide)⟩
    have := isPlain_iff.1 (hplain l hl c hc)
    omega

theorem entry?_body {e : Event} (hdeep : e.isTooDeep = false) (hlong : e.hasLongNumber = false) :
    entry? e.body = .ok (some e.reread) := by
  obtain ⟨c, tail, htail, -⟩ := e.exists_body
  have hnot : ¬ e.body.all isBlank = true := by
    rw [htail]
    simp
    intro hblank
    exact absurd hblank (by decide)
  unfold entry?
  rw [if_neg hnot, Event.parse_body hdeep hlong]

/-- The entries of a row of events are what their lines are read as. -/
theorem entries_flatMap_line {events : List Event}
    (hwritable : ∀ e ∈ events, e.isTooDeep = false ∧ e.hasLongNumber = false) :
    entries (events.flatMap Event.line) = .ok (events.map Event.reread) := by
  have hentries : (events.map Event.body).mapM entry? = .ok (events.map fun e => some e.reread) :=
    mapM_map_eq_ok fun e he => entry?_body (hwritable e he).1 (hwritable e he).2
  rw [entries, lines_flatMap_line, hentries]
  show Except.ok ((events.map fun e => some e.reread).filterMap id) = _
  rw [List.filterMap_map]
  show Except.ok (events.filterMap (some ∘ fun e => e.reread)) = _
  rw [List.filterMap_eq_map]

end Log

end FormulaBook
