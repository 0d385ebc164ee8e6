import FormulaBook.Proofs.Event.Query
import FormulaBook.Proofs.Event.RoundTrip
import FormulaBook.Proofs.Json.Limits

/-!
# Logs of any content

What a reader makes of a log whatever its octets are, events or not. Lines that are blank or no JSON
are passed over. The values of all other lines are found, objects or not, and a query takes those
that it wants, the latest first. It fails at a value that it cannot be put to, and a line that is
too much for the reader, by a number or by its nesting, makes every query fail.

* `Log.value?`, `Log.values`: the value of a line, and those of the lines in some octets;
* `Log.entries_eq_ok`, `Log.entries_of_moderate`: the entries of a log are these values;
* `Sink.read_content`: what a query is answered, and when it fails.
-/

namespace FormulaBook

open Text

namespace Log

/-- The value of a line, unless the line is blank or no JSON. -/
def value? (line : List Char) : Option Json :=
  if line.all isBlank then none else (Json.parse line).toOption

/-- The values of the lines in some octets. -/
def values (content : List UInt8) : List Json := (lines (Utf8.decode content)).filterMap value?

theorem entry?_eq_ok {line : List Char} {found : Option Json} (h : entry? line = .ok found) :
    found = value? line := by
  unfold entry? at h
  unfold value?
  split
  · rw [if_pos ‹_›] at h
    cases h
    rfl
  · rw [if_neg ‹_›] at h
    split at h <;> cases h
    all_goals
      rename_i hparse
      rw [hparse]
      rfl

/-- A line that makes a reader fail is not moderate. -/
theorem not_moderate_of_error {line : List Char} {e : ReadError} (h : entry? line = .error e) :
    ¬ Json.Moderate line := by
  intro hmoderate
  unfold entry? at h
  split at h
  · cases h
  split at h
  · cases h
  · cases h
  · rename_i hparse
    cases Json.error_of_moderate hmoderate hparse
  · rename_i hparse
    cases Json.error_of_moderate hmoderate hparse

/-- The entries of a log that can be read are the values of its lines. -/
theorem entries_eq_ok {content : List UInt8} {all : List Json} (h : entries content = .ok all) :
    all = values content := by
  obtain ⟨found, hfound, rfl⟩ := map_eq_ok.1 h
  rw [eq_map_of_mapM (fun _ _ _ => entry?_eq_ok) hfound, List.filterMap_map]
  rfl

/-- A log with moderate lines only can be read. -/
theorem entries_of_moderate {content : List UInt8}
    (h : ∀ line ∈ lines (Utf8.decode content), Json.Moderate line) :
    entries content = .ok (values content) := by
  cases hentries : entries content with
  | ok all => rw [entries_eq_ok hentries]
  | error e =>
    obtain ⟨before, line, after, heq, -, hline⟩ := mapM_eq_error.1 (map_eq_error.1 hentries)
    refine absurd (h line ?_) (not_moderate_of_error hline)
    rw [heq]
    exact List.mem_append_right before List.mem_cons_self

end Log

namespace Sink

variable {s : Sink} {files : Files} {content : List UInt8}

/-- **What a query is answered by a log of any content.** Whatever the octets of the log are, the
answer consists of the values in its window that the query wants, the latest first and as many as it
has room for; if the query asks for anything, they are objects. If no line in the window is too much
for the reader, the query fails only at a value that it cannot be put to, and only while there is
room. -/
theorem read_content (hcontent : s.content files = .ok content) (q : Log.Query) :
    let shown := Log.window s.window content
    let found := (Log.values shown).reverse
    (∀ answer, s.read q files = .ok answer → answer = (found.filter (q.Wants ·)).take q.room ∧
      (q.Asks → ∀ j ∈ answer, ∃ fields, j = .object fields)) ∧
    ((∀ line ∈ lines (Utf8.decode shown), Json.Moderate line) → ∀ cause,
      s.read q files = .error cause ↔ cause = .log .unexpectedForm ∧
        ∃ before j after, found = before ++ j :: after ∧ (∀ k ∈ before, q.Suits k) ∧
          (before.filter (q.Wants ·)).length < q.room ∧ ¬ q.Suits j) := by
  intro shown found
  have hread : s.read q files = ((Log.entries shown).bind fun all =>
      q.select all.reverse).mapError .log := read_eq hcontent q
  refine ⟨fun answer hanswer => ?_, fun hmoderate cause => ?_⟩
  · rw [hread, mapError_eq_ok] at hanswer
    obtain ⟨all, hall, hselect⟩ := bind_eq_ok.1 hanswer
    obtain rfl := Log.entries_eq_ok hall
    obtain rfl := Log.Query.select_eq_ok hselect
    refine ⟨rfl, fun hasks j hj => ?_⟩
    have hwants : q.Wants j := by
      simpa using List.of_mem_filter (List.mem_of_mem_take hj)
    obtain ⟨fields, hfields, -⟩ := Log.Query.suits_of_wants hwants hasks
    exact ⟨fields, hfields⟩
  · rw [hread, Log.entries_of_moderate hmoderate, mapError_eq_error]
    constructor
    · rintro ⟨e, he, rfl⟩
      obtain ⟨rfl, hfails⟩ := Log.Query.select_eq_error.1 he
      exact ⟨rfl, hfails⟩
    · rintro ⟨rfl, hfails⟩
      exact ⟨_, Log.Query.select_eq_error.2 ⟨rfl, hfails⟩, rfl⟩

/-- A line that is no text, an object that is no event, and a number. -/
def strayOctets : List UInt8 := 0xFF :: octets "\n\x7b\"message\": \"ok\"\x7d\n7\n"

/-- A log with these lines. -/
def strayFiles : Files := ⟨[((bookLog 100).path, .file strayOctets)]⟩

/-- The line that is no text is passed over, and the number is given back as an entry. A query for a
level fails at it. -/
theorem read_content_stray :
    (bookLog 100).content strayFiles = .ok strayOctets ∧
    (∀ line ∈ lines (Utf8.decode (Log.window 100 strayOctets)), Json.Moderate line) ∧
    (bookLog 100).read {} strayFiles = .ok [.int 7, .object [("message", .text "ok")]] ∧
    (bookLog 100).read { level := "info" } strayFiles = .error (.log .unexpectedForm) := by
  have hcontent : (bookLog 100).content strayFiles = .ok strayOctets := rfl
  have hmoderate : ∀ line ∈ lines (Utf8.decode (Log.window 100 strayOctets)),
      Json.Moderate line := by
    have hshort : ∀ line ∈ lines (Utf8.decode (Log.window 100 strayOctets)),
        line.length ≤ Json.nestingLimit := by decide +kernel
    exact fun line hline => Json.moderate_of_length_le (hshort line hline)
  have hfound : (Log.values (Log.window 100 strayOctets)).reverse =
      [.int 7, .object [("message", .text "ok")]] := rfl
  refine ⟨hcontent, hmoderate, ?_, ?_⟩
  · have hasks : ¬ Log.Query.Asks {} := by simp [Log.Query.Asks]
    obtain ⟨hanswer, hfails⟩ := read_content hcontent {}
    cases hread : (bookLog 100).read {} strayFiles with
    | error cause =>
      obtain ⟨-, before, j, after, -, -, -, hsuits⟩ := (hfails hmoderate cause).1 hread
      exact absurd (fun hasks' => absurd hasks' hasks) hsuits
    | ok answer =>
      have htaken := (hanswer answer hread).1
      have hall : [Json.int 7, .object [("message", .text "ok")]].filter
          (Log.Query.Wants {} ·) = [.int 7, .object [("message", .text "ok")]] :=
        List.filter_eq_self.2 fun j _ => decide_eq_true (Log.Query.wants_of_not_asks hasks j)
      change answer = (List.filter _ (Log.values (Log.window 100 strayOctets)).reverse).take _
        at htaken
      rw [htaken, hfound, hall]
      rfl
  · refine ((read_content hcontent { level := "info" }).2 hmoderate _).2 ⟨rfl, ?_⟩
    refine ⟨[], .int 7, [.object [("message", .text "ok")]], hfound, by simp, by decide,
      fun h => ?_⟩
    obtain ⟨fields, hfields, -⟩ := h (.inl (by decide))
    cases hfields

end Sink

end FormulaBook
