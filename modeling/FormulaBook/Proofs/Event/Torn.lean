import FormulaBook.Proofs.Event.Reading
import FormulaBook.Proofs.Json.Joined
import FormulaBook.Proofs.Text.OpenLine

/-!
# Events behind a torn line

An event is written behind whatever the log holds. If a line of the log was torn, so that no line
break ends it, the event makes this line longer, and a line of both has a value only if the torn one
consists of blanks. Otherwise a reader is given neither what was torn nor the event, and is not told
of it.

* `Event.lines_write`: the lines of a log with an event behind it;
* `Event.value?_append_body`: the value of a line that ends with an event;
* `Sink.read_unfiltered`: what a query for everything is answered by a log of any content;
* `Sink.read_write`: what it is answered when an event has been written.
-/

namespace FormulaBook

open Text

namespace Event

variable {e : Event}

/-- An event that is written makes the open line of the log longer and ends it. -/
theorem lines_write (e : Event) (before : List UInt8) :
    lines (Utf8.decode (before ++ e.line)) =
      lines (closedPart (Utf8.decode before)) ++ [openLine (Utf8.decode before) ++ e.body] := by
  have hascii : ∀ c ∈ e.body ++ ['\n'], c.toNat < 0x80 := by
    refine List.forall_mem_append.2 ⟨fun c hc => ?_, List.forall_mem_singleton.2 (by decide)⟩
    have := isPlain_iff.1 (e.isPlain_of_mem_body c hc)
    omega
  have hne : e.body ≠ [] := by
    obtain ⟨c, tail, hbody, -⟩ := e.exists_body
    rw [hbody]
    exact List.cons_ne_nil _ _
  rw [line_eq, Utf8.decode_append_asciiOctets hascii]
  exact lines_append_line (fun c hc => not_isLineBreak_of_isPlain (e.isPlain_of_mem_body c hc)) hne _

/-- A line that ends with an event has a value only if nothing but blanks stands before it. -/
theorem value?_append_body (hdeep : e.isTooDeep = false) (hlong : e.hasLongNumber = false)
    (front : List Char) : Log.value? (front ++ e.body) =
      if front.all Json.isBlank then some e.reread else none := by
  obtain ⟨c, tail, hbody, hc, hname⟩ := e.exists_body
  have hread := parse_body hdeep hlong
  rw [hbody] at hread
  have hnot : ¬ (front ++ e.body).all isBlank = true := by
    rw [hbody, List.all_append, List.all_cons]
    simp [show isBlank '\x7b' = false by decide]
  rw [Log.value?, if_neg hnot, hbody]
  ext k
  rw [← Option.mem_def, mem_toOption, Json.parse_append_object hc hname hread, ← List.all_eq_true]
  cases front.all Json.isBlank <;> simp [eq_comm]

end Event

namespace Sink

variable {s : Sink} {e : Event} {files files' : Files} {content before : List UInt8}

/-- What a query for everything is answered by a log of any content: the values in its window, the
latest first and as many as it has room for. It is answered if no line is too much for the reader. -/
theorem read_unfiltered (hcontent : s.content files = .ok content) {q : Log.Query}
    (hasks : ¬ q.Asks) :
    let shown := Log.window s.window content
    let found := (Log.values shown).reverse
    (∀ answer, s.read q files = .ok answer → answer = found.take q.room) ∧
    ((∀ line ∈ lines (Utf8.decode shown), Json.Moderate line) →
      s.read q files = .ok (found.take q.room)) := by
  intro shown found
  have hall (all : List Json) : all.filter (q.Wants ·) = all :=
    List.filter_eq_self.2 fun j _ => decide_eq_true (Log.Query.wants_of_not_asks hasks j)
  rw [read_eq hcontent q]
  refine ⟨fun answer hanswer => ?_, fun hmoderate => ?_⟩
  · obtain ⟨all, hentries, hselect⟩ := bind_eq_ok.1 (mapError_eq_ok.1 hanswer)
    rw [Log.entries_eq_ok hentries] at hselect
    rw [Log.Query.select_eq_ok hselect, hall]
  · have hselect : q.select found = .ok ((found.filter (q.Wants ·)).take q.room) :=
      Log.Query.select_of_suits fun j _ hasks' => absurd hasks' hasks
    rw [hall] at hselect
    rw [mapError_eq_ok, Log.read, Log.entries_of_moderate hmoderate]
    exact hselect

/-- **An event behind a torn line.** Whatever the octets of a log were when an event was written, a
query for everything is then answered by the values of the whole lines that were there, and by the
event as the latest one if nothing but blanks was left of a torn line: nothing is left of one if the
log was empty or ended with a line feed. If anything else was left of it, the event is not found. The
query is answered if no line is too much for the reader. -/
theorem read_write (hcontent : s.content files = .ok before)
    (hwrite : s.write e files = .ok files')
    (hsize : ∀ content, s.content files' = .ok content → (content.length : Int) ≤ s.window)
    (limit : Int) :
    let text := Utf8.decode before
    let own := if (openLine text).all Json.isBlank then [e.reread] else []
    let older := ((lines (closedPart text)).filterMap Log.value?).reverse
    let q : Log.Query := { limit }
    (∀ answer, s.read q files' = .ok answer → answer = (own ++ older).take q.room) ∧
    ((∀ line ∈ lines (closedPart text) ++ [openLine text ++ e.body], Json.Moderate line) →
      s.read q files' = .ok ((own ++ older).take q.room)) ∧
    (before = [] ∨ before.getLast? = some Log.newline → openLine text = []) ∧
    (e.toJson.Legible → e.reread = e.toJson.sorted) := by
  intro text own older q
  obtain ⟨hdeep, hlong, -⟩ := write_eq_ok hwrite
  have hafter := content_write hwrite hcontent
  have hwindow := Log.window_of_le (hsize _ hafter)
  have hown : ([openLine text ++ e.body].filterMap Log.value?).reverse = own := by
    rw [List.filterMap_cons, List.filterMap_nil, Event.value?_append_body hdeep hlong]
    unfold own
    cases (openLine text).all Json.isBlank <;> rfl
  have hvalues : (Log.values (before ++ e.line)).reverse = own ++ older := by
    rw [Log.values, e.lines_write, List.filterMap_append, List.reverse_append, hown]
  obtain ⟨hanswer, hmoderate⟩ := read_unfiltered hafter (q := q) (by simp [q, Log.Query.Asks])
  rw [hwindow, hvalues] at hanswer hmoderate
  rw [e.lines_write] at hmoderate
  refine ⟨hanswer, hmoderate, ?_, e.reread_of_legible⟩
  rintro (rfl | hlast)
  · rfl
  · obtain ⟨octets, rfl⟩ := List.getLast?_eq_some_iff.1 hlast
    refine openLine_eq_nil fun hne => ?_
    have htext : text = Utf8.decode octets ++ [Char.ofNat Log.newline.toNat] :=
      Utf8.decode_append (by decide) octets []
    simp only [htext, List.getLast_append_singleton]
    decide

/-- A line that was torn. -/
def tornOctets : List UInt8 := octets "\x7b\"context\": \x7b\"form"

/-- A line that was not. -/
def wholeOctets : List UInt8 := octets "7\n"

/-- Behind the torn line the event is not found, and behind the other one it is. -/
theorem read_write_torn :
    (∃ files', (bookLog 400).write (executed "RATE") (logFiles tornOctets) = .ok files' ∧
      (bookLog 400).read {} files' = .ok []) ∧
    ∃ files', (bookLog 400).write (executed "RATE") (logFiles wholeOctets) = .ok files' ∧
      (bookLog 400).read {} files' = .ok [(executed "RATE").toJson.sorted, .int 7] := by
  have hrender : (executed "RATE").toJson.render.toList.length ≤ 300 := by decide +kernel
  have hopen : ∀ before ∈ [tornOctets, wholeOctets],
      ((bookLog 400).write (executed "RATE") (logFiles before)).toOption.isSome = true ∧
        (before.length ≤ 90 ∧ (openLine (Utf8.decode before)).length ≤ 90) ∧
        ∀ line ∈ lines (closedPart (Utf8.decode before)), line.length ≤ Json.nestingLimit := by
    decide +kernel
  have hread : ∀ before ∈ [tornOctets, wholeOctets], ∃ files',
      (bookLog 400).write (executed "RATE") (logFiles before) = .ok files' ∧
      (bookLog 400).read {} files' = .ok ((
        (if (openLine (Utf8.decode before)).all Json.isBlank then [(executed "RATE").reread] else []) ++
          ((lines (closedPart (Utf8.decode before))).filterMap Log.value?).reverse).take 200) := by
    intro before hmem
    obtain ⟨hwritten, ⟨hlength, hshort⟩, hlines⟩ := hopen before hmem
    obtain ⟨files', hfiles⟩ := Option.isSome_iff_exists.1 hwritten
    have hwrite := mem_toOption.1 hfiles
    have hcontent := content_logFiles 400 before
    have hsize : ∀ content, (bookLog 400).content files' = .ok content →
        (content.length : Int) ≤ 400 := by
      intro content hafter
      cases (content_write hwrite hcontent).symm.trans hafter
      rw [List.length_append, Event.length_line]
      omega
    refine ⟨files', hwrite, (read_write hcontent hwrite hsize 200).2.1 fun line hline => ?_⟩
    refine Json.moderate_of_length_le ?_
    obtain hline | hline := List.mem_append.1 hline
    · exact hlines line hline
    · rw [List.mem_singleton.1 hline, List.length_append, Event.length_body]
      unfold Json.nestingLimit
      omega
  obtain ⟨torn, htorn, hnone⟩ := hread tornOctets (by simp)
  obtain ⟨whole, hwhole, hboth⟩ := hread wholeOctets (by simp)
  rw [(executed "RATE").reread_of_legible
    (legible_executed (halvesApart_of_not_holdsHalf (by decide +kernel)))] at hboth
  exact ⟨⟨torn, htorn, hnone⟩, whole, hwhole, hboth⟩

end Sink

end FormulaBook
