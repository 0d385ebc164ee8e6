import FormulaBook.Proofs.Event.RoundTrip

/-!
# The window of a reader

A reader looks at the last octets of a log only, as many as its window holds, and passes over what
comes before the first line feed among them. So it is shown the events whose lines lie within the
window, but for one case: where the window begins exactly with a line, that line is passed over
although it is whole. A window that holds the whole log is not cut.

* `Log.extent`, `Log.within`: the events whose lines lie within a window;
* `Log.suffix_within_iff`: an end of a row fits into the window if and only if it is one of those;
* `Log.cut`, `Log.window_eq`: a log without its first octets and the rest of the line that is cut;
* `Log.cut_line`, `Log.cut_lines`: what a cut does to one line, and to a row of lines;
* `Log.shown`, `Log.window_lines`: the events that a reader is shown;
* `Sink.read_tail`: the answer of a log that is larger than the window.
-/

namespace FormulaBook

open Text

namespace Log

/-- How many octets the lines of some events take. -/
def extent (events : List Event) : Nat := (events.flatMap Event.line).length

@[simp] theorem extent_nil : extent [] = 0 := rfl

@[simp] theorem extent_cons (e : Event) (events : List Event) :
    extent (e :: events) = e.line.length + extent events := by
  rw [extent, List.flatMap_cons, List.length_append]
  rfl

/-- The events at the end of a row whose lines lie within the last `size` octets. -/
def within (size : Int) : List Event → List Event
  | [] => []
  | e :: rest => if (extent (e :: rest) : Int) ≤ size then e :: rest else within size rest

section Within

variable {size : Int} {e : Event} {events kept : List Event}

theorem within_of_le (h : (extent events : Int) ≤ size) : within size events = events := by
  cases events with
  | nil => rfl
  | cons e rest => rw [within, if_pos h]

theorem within_of_lt (h : size < extent (e :: events)) :
    within size (e :: events) = within size events := by
  rw [within, if_neg (by omega)]

theorem within_suffix (size : Int) (events : List Event) : within size events <:+ events := by
  induction events with
  | nil => exact List.suffix_refl []
  | cons e rest ih =>
    by_cases h : (extent (e :: rest) : Int) ≤ size
    · exact ⟨[], within_of_le h⟩
    · rw [within_of_lt (by omega)]
      exact ih.trans (List.suffix_cons e rest)

theorem extent_within (hsize : 0 ≤ size) (events : List Event) :
    (extent (within size events) : Int) ≤ size := by
  induction events with
  | nil => simpa [within] using hsize
  | cons e rest ih =>
    by_cases h : (extent (e :: rest) : Int) ≤ size
    · rwa [within_of_le h]
    · rwa [within_of_lt (by omega)]

theorem extent_le_of_suffix (h : kept <:+ events) : extent kept ≤ extent events := by
  obtain ⟨before, rfl⟩ := h
  rw [extent, extent, List.flatMap_append, List.length_append]
  omega

/-- The lines of the events at the end of a row take up no more than the window if and only if these
events are among those within the window. -/
theorem suffix_within_iff (hsize : 0 ≤ size) (h : kept <:+ events) :
    (extent kept : Int) ≤ size ↔ kept <:+ within size events := by
  constructor
  · intro hfits
    induction events with
    | nil => exact h
    | cons e rest ih =>
      by_cases hall : (extent (e :: rest) : Int) ≤ size
      · rwa [within_of_le hall]
      · rw [within_of_lt (by omega)]
        rcases List.suffix_cons_iff.1 h with rfl | hrest
        · exact absurd hfits hall
        · exact ih hrest
  · intro hkept
    have hle := extent_le_of_suffix hkept
    have hwithin := extent_within hsize events
    omega

/-- One octet less shuts out the first event within the window if its line begins there. -/
theorem within_sub_one (size : Int) (events : List Event) : within (size - 1) events =
    if (extent (within size events) : Int) = size then (within size events).tail
    else within size events := by
  induction events with
  | nil =>
    rw [within, within, List.tail_nil]
    split <;> rfl
  | cons e rest ih =>
    by_cases h : (extent (e :: rest) : Int) ≤ size
    · rw [within_of_le h]
      have hline := e.length_line
      split
      · rw [within_of_lt (by omega), List.tail_cons]
        refine within_of_le ?_
        rw [extent_cons] at h
        omega
      · exact within_of_le (by omega)
    · rw [within_of_lt (by omega), within_of_lt (by omega), ih]

end Within

/-! ### Lines that are cut -/

/-- A log without its first `start` octets and without the rest of the line that is cut. -/
def cut (start : Nat) (content : List UInt8) : List UInt8 :=
  ((content.drop start).dropWhile (· != newline)).drop 1

/-- A window that does not hold the whole log is a cut. -/
theorem window_eq (size : Int) (content : List UInt8) : window size content =
    if (content.length : Int) ≤ size then content
    else cut (content.length - size).toNat content := by
  unfold window cut
  by_cases h : (content.length : Int) ≤ size
  · simp [show (content.length - size).toNat = 0 by omega, h]
  · simp [show (content.length - size).toNat ≠ 0 by omega, h]

theorem newline_not_mem_body (e : Event) : newline ∉ asciiOctets e.body := by
  intro hmem
  obtain ⟨c, hc, heq⟩ := List.mem_map.1 hmem
  have hplain := isPlain_iff.1 (e.isPlain_of_mem_body c hc)
  have hoctet := congrArg UInt8.toNat heq
  rw [UInt8.toNat_ofNat'] at hoctet
  change c.toNat % 2 ^ 8 = 10 at hoctet
  omega

/-- A line that is cut, even by none of its octets, is passed over. -/
theorem cut_line {e : Event} {start : Nat} (h : start < e.line.length) (rest : List UInt8) :
    cut start (e.line ++ rest) = rest := by
  have hline : e.line = asciiOctets e.body ++ [newline] := by
    rw [Event.line_eq, asciiOctets, List.map_append]
    rfl
  have hstart : start ≤ (asciiOctets e.body).length := by
    rw [hline, List.length_append, List.length_singleton] at h
    omega
  have hbody : ∀ b ∈ (asciiOctets e.body).drop start, (b != newline) = true := by
    intro b hb
    have hne : b ≠ newline := by
      rintro rfl
      exact newline_not_mem_body e (List.mem_of_mem_drop hb)
    simpa using hne
  rw [cut, hline, List.append_assoc, List.drop_append_of_le_length hstart,
    List.dropWhile_append_of_pos hbody]
  rfl

/-- A line in front of the cut is passed over with the octets before it. -/
theorem cut_after {e : Event} {start : Nat} (h : e.line.length ≤ start) (rest : List UInt8) :
    cut start (e.line ++ rest) = cut (start - e.line.length) rest := by
  rw [cut, cut, List.drop_append, List.drop_eq_nil_of_le h, List.nil_append]

/-- A row of lines that is cut is left with those that take less than what is behind the cut. -/
theorem cut_lines {size : Int} {events : List Event} (h : size ≤ extent events) :
    cut (extent events - size).toNat (events.flatMap Event.line) =
      (within (size - 1) events).flatMap Event.line := by
  induction events with
  | nil => simp [cut, within]
  | cons e events ih =>
    rw [extent_cons] at h
    rw [within_of_lt (by rw [extent_cons]; omega), extent_cons, List.flatMap_cons]
    by_cases hcut : (extent events : Int) < size
    · rw [cut_line (by omega), within_of_le (by omega)]
    · rw [cut_after (by omega)]
      have hstart : ((e.line.length + extent events : Nat) - size).toNat - e.line.length =
          (extent events - size).toNat := by
        omega
      rw [hstart, ih (by omega)]

/-! ### What is shown -/

/-- The events that a reader is shown: those within its window, but not the first of them if the
window begins with its line and not with the log. -/
def shown (size : Int) (events : List Event) : List Event :=
  if (extent (within size events) : Int) = size ∧ (within size events).length < events.length then
    (within size events).tail
  else within size events

/-- The window of a reader holds the lines of the events that it is shown. -/
theorem window_lines (size : Int) (events : List Event) :
    window size (events.flatMap Event.line) = (shown size events).flatMap Event.line := by
  by_cases h : (extent events : Int) ≤ size
  · rw [window_of_le h, shown, within_of_le h, if_neg (by omega)]
  · have hwindow : window size (events.flatMap Event.line) =
        cut (extent events - size).toNat (events.flatMap Event.line) :=
      (window_eq _ _).trans (if_neg h)
    rw [hwindow, cut_lines (by omega), within_sub_one, shown]
    by_cases hexact : (extent (within size events) : Int) = size
    · -- The window does not begin with the log, since the log is larger.
      have hshort : (within size events).length < events.length := by
        refine Nat.lt_of_le_of_ne (within_suffix size events).length_le fun hlength => ?_
        rw [(within_suffix size events).eq_of_length hlength] at hexact
        omega
      rw [if_pos hexact, if_pos ⟨hexact, hshort⟩]
    · rw [if_neg hexact, if_neg fun hboth => hexact hboth.1]

end Log

namespace Sink

variable {s : Sink} {events : List Event} {files files' : Files} {limit : Int}

/-- **What a reader is shown of a log.** If some events are written to a log that is not there before,
a query for everything is answered with the objects of the events that the reader is shown, the
latest first: those whose lines lie within its window, but not the first of them if the window begins
with its line and not with the log. -/
theorem read_tail (habsent : files.has s.path = false)
    (hwrites : events.foldlM (fun files e => s.write e files) files = .ok files')
    (hlegible : ∀ e ∈ events, e.toJson.Legible)
    (hcount : (events.length : Int) ≤ Log.entryLimit) (hlimit : (events.length : Int) ≤ limit) :
    s.read { limit } files' =
      .ok ((Log.shown s.window events).reverse.map (·.toJson.sorted)) := by
  have hcontent := content_writes hwrites (content_of_absent habsent)
  rw [List.nil_append] at hcontent
  have hsuffix : Log.shown s.window events <:+ events := by
    rw [Log.shown]
    split
    · exact (List.tail_suffix _).trans (Log.within_suffix _ _)
    · exact Log.within_suffix _ _
  have hlength := hsuffix.length_le
  have hwritable := writable_of_writes hwrites
  exact read_legible hcontent (Log.window_lines s.window events)
    (fun e he => hlegible e (hsuffix.subset he)) (fun e he => hwritable e (hsuffix.subset he))
    (by omega) (by omega)

/-- Where the window just holds the line of the later of two events, that line is passed over. -/
theorem read_tail_scrambled : ∃ files',
    [scrambled, scrambled].foldlM
      (fun files e => (bookLog scrambled.line.length).write e files) {} = .ok files' ∧
    Log.within scrambled.line.length [scrambled, scrambled] = [scrambled] ∧
    (bookLog scrambled.line.length).read { limit := 2 } files' = .ok [] := by
  obtain ⟨files', hwrites⟩ := exists_writes_bookLog scrambled.line.length
  have hlegible : ∀ e ∈ [scrambled, scrambled], e.toJson.Legible := by
    simp [legible_scrambled]
  have hline := scrambled.length_line
  have hwithin : Log.within scrambled.line.length [scrambled, scrambled] = [scrambled] := by
    rw [Log.within_of_lt (by simp; omega), Log.within_of_le (by simp)]
  have hshown : Log.shown (bookLog scrambled.line.length).window [scrambled, scrambled] = [] := by
    show Log.shown scrambled.line.length [scrambled, scrambled] = []
    simp [Log.shown, hwithin]
  have hread := read_tail rfl hwrites hlegible (by decide) (show (2 : Int) ≤ 2 by decide)
  rw [hshown] at hread
  exact ⟨files', hwrites, hwithin, hread⟩

end Sink

end FormulaBook
