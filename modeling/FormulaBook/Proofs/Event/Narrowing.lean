import FormulaBook.Proofs.Event.Reading
import FormulaBook.Proofs.Event.Window
import FormulaBook.Proofs.Text.OpenLine

/-!
# Narrower windows

A reader with a narrower window is shown less of the beginning of a log and all of the rest,
whatever the octets of the log are: the octets in its window begin behind a line feed of the wider
window, and what stands behind a line feed is read by itself. So its lines are whole lines of the
log, its entries are the last ones of the wider window, and its answer to a query is the beginning
of the answer that the wider window gives.

* `Log.IsBehind`: some octets, those behind one of their line feeds, or none of them;
* `Log.isBehind_cut`, `Log.isBehind_window`: what a cut leaves, and a narrower window;
* `Log.lines_of_isBehind`, `Log.entries_of_isBehind`: the lines and the entries of these octets;
* `Sink.read_narrower`: what a narrower window shows.
-/

namespace FormulaBook

open Text

namespace Log

/-! ### Octets behind a line feed -/

/-- Some octets begin where others do or behind a line feed of them, and end where they do; or there
are none of them. -/
def IsBehind (rest content : List UInt8) : Prop :=
  rest = content ∨ rest = [] ∨ ∃ before, content = before ++ newline :: rest

section Cut

variable {rest content : List UInt8} {start start' : Nat}

/-- A cut that leaves anything leaves what is behind a line feed. -/
theorem cut_cases (start : Nat) (content : List UInt8) :
    cut start content = [] ∨ ∃ before, content = before ++ newline :: cut start content := by
  have hsplit : content.drop start = (content.drop start).takeWhile (· != newline) ++
      (content.drop start).dropWhile (· != newline) := List.takeWhile_append_dropWhile.symm
  unfold cut
  cases hrest : (content.drop start).dropWhile (· != newline) with
  | nil => exact .inl rfl
  | cons b rest =>
    have hb : b = newline := by
      have hnot := List.head?_dropWhile_not (· != newline) (content.drop start)
      rw [hrest] at hnot
      simpa using hnot
    refine .inr ⟨content.take start ++ (content.drop start).takeWhile (· != newline), ?_⟩
    rw [hrest, hb] at hsplit
    rw [List.drop_one, List.tail_cons, List.append_assoc, ← hsplit, List.take_append_drop]

theorem isBehind_cut (start : Nat) (content : List UInt8) : IsBehind (cut start content) content :=
  .inr (cut_cases start content)

/-- A later cut leaves what is behind a line feed of what an earlier one leaves. -/
theorem isBehind_cut_of_le (h : start ≤ start') (content : List UInt8) :
    IsBehind (cut start' content) (cut start content) := by
  induction content generalizing start start' with
  | nil => exact .inr (.inl (by simp [cut]))
  | cons b content ih =>
    cases start' with
    | zero =>
      obtain rfl := Nat.le_zero.1 h
      exact .inl rfl
    | succ start' =>
      cases start with
      | succ start => exact ih (Nat.le_of_succ_le_succ h)
      | zero =>
        show IsBehind (cut start' content) (cut 0 (b :: content))
        by_cases hb : b = newline
        · subst hb
          exact isBehind_cut start' content
        · have hcut : cut 0 (b :: content) = cut 0 content := by
            rw [cut, cut, List.drop_zero, List.drop_zero,
              List.dropWhile_cons_of_pos (by simpa using hb)]
          rw [hcut]
          exact ih (Nat.zero_le start')

/-- Every window shows what is behind a line feed of the log. -/
theorem isBehind_window_self (size : Int) (content : List UInt8) :
    IsBehind (window size content) content := by
  rw [window_eq]
  split
  · exact .inl rfl
  · exact isBehind_cut _ content

/-- A narrower window shows what is behind a line feed of the wider one. -/
theorem isBehind_window {size size' : Int} (h : size ≤ size') (content : List UInt8) :
    IsBehind (window size content) (window size' content) := by
  rw [window_eq, window_eq]
  split
  · rw [if_pos (by omega)]
    exact .inl rfl
  split
  · exact isBehind_cut _ content
  · exact isBehind_cut_of_le (by omega) content

end Cut

/-! ### Lines and entries -/

section Entries

variable {rest content : List UInt8} {all : List Json}

/-- The lines behind a line feed are the last lines. -/
theorem lines_of_isBehind (h : IsBehind rest content) :
    lines (Utf8.decode rest) <:+ lines (Utf8.decode content) := by
  obtain rfl | rfl | ⟨before, rfl⟩ := h
  · exact List.suffix_refl _
  · exact List.nil_suffix
  · have hbreak : isLineBreak (Char.ofNat newline.toNat) = true := by decide
    have hpair : ∀ after, Char.ofNat newline.toNat = '\r' → Utf8.decode rest ≠ '\n' :: after :=
      fun after hreturn => absurd hreturn (by decide)
    rw [Utf8.decode_append (by decide), lines_append hbreak hpair]
    exact List.suffix_append _ _

/-- The entries behind a line feed are the last entries. -/
theorem entries_of_isBehind (h : IsBehind rest content) (hall : entries content = .ok all) :
    ∃ last, entries rest = .ok last ∧ last <:+ all := by
  have hlines := lines_of_isBehind h
  cases hrest : entries rest with
  | error e =>
    -- No line makes the reader fail, for it is a line of all.
    obtain ⟨before, line, after, heq, -, hline⟩ := mapM_eq_error.1 (map_eq_error.1 hrest)
    obtain ⟨found, hfound, -⟩ := map_eq_ok.1 hall
    have hmem : line ∈ lines (Utf8.decode rest) := by
      rw [heq]
      exact List.mem_append_right before List.mem_cons_self
    obtain ⟨value, -, hvalue⟩ := (exists_mem_of_mapM hfound).1 line (hlines.subset hmem)
    cases hline.symm.trans hvalue
  | ok last =>
    rw [entries_eq_ok hrest, entries_eq_ok hall]
    exact ⟨_, rfl, hlines.filterMap value?⟩

end Entries

end Log

namespace Sink

/-- **A narrower window only forgets the oldest entries.** Whatever the octets of a log are, the
lines that a reader is shown are lines of the whole log, none of them cut, and a narrower window
shows the last of those that a wider one does. If the wider window can be read, then so can the
narrower one, and its entries are the last ones. Whatever a query is answered through the wider
window, through the narrower one the answer is the beginning of that. -/
theorem read_narrower {size size' : Int} (hsize : size ≤ size') :
    (∀ content : List UInt8,
      lines (Utf8.decode (Log.window size content)) <:+
        lines (Utf8.decode (Log.window size' content)) ∧
      lines (Utf8.decode (Log.window size content)) <:+ lines (Utf8.decode content) ∧
      ∀ all, Log.entries (Log.window size' content) = .ok all →
        ∃ last, Log.entries (Log.window size content) = .ok last ∧ last <:+ all) ∧
    ∀ (directory : Path) (files : Files) (q : Log.Query) (answer : List Json),
      Sink.read { directory, window := size' } q files = .ok answer →
        ∃ first, Sink.read { directory, window := size } q files = .ok first ∧
          first <+: answer := by
  refine ⟨fun content => ⟨?_, ?_, fun all => ?_⟩, fun directory files q answer hanswer => ?_⟩
  · exact Log.lines_of_isBehind (Log.isBehind_window hsize content)
  · exact Log.lines_of_isBehind (Log.isBehind_window_self size content)
  · exact Log.entries_of_isBehind (Log.isBehind_window hsize content)
  · -- The octets of the log do not depend on the window.
    obtain ⟨content, hcontent, hread⟩ := bind_eq_ok.1 hanswer
    obtain ⟨all, hall, hselect⟩ := bind_eq_ok.1 (mapError_eq_ok.1 hread)
    obtain ⟨last, hlast, hsuffix⟩ :=
      Log.entries_of_isBehind (Log.isBehind_window hsize content) hall
    obtain ⟨first, hfirst, hprefix⟩ :=
      Log.Query.select_of_prefix (List.reverse_prefix.2 hsuffix) hselect
    refine ⟨first, ?_, hprefix⟩
    have hnarrow : Sink.content { directory, window := size } files = .ok content := hcontent
    rw [read_eq hnarrow, mapError_eq_ok]
    exact bind_eq_ok.2 ⟨last, hlast, hfirst⟩

/-- A log that begins with a character of two octets. -/
def accentOctets : List UInt8 := octets "é\n7\n8\n"

/-- A window of six octets begins within that character and shows both numbers, and one of three
octets begins within the line of the first. -/
theorem read_narrower_accent :
    Log.entries (Log.window 6 accentOctets) = .ok [.int 7, .int 8] ∧
    Log.entries (Log.window 3 accentOctets) = .ok [.int 8] ∧
    (∃ last, Log.entries (Log.window 3 accentOctets) = .ok last ∧ last <:+ [.int 7, .int 8]) ∧
    ∃ first, (bookLog 3).read {} ⟨[((bookLog 3).path, .file accentOctets)]⟩ = .ok first ∧
      first <+: [.int 8, .int 7] := by
  have hnarrower := Sink.read_narrower (show (3 : Int) ≤ 6 by decide)
  have hwide : Log.entries (Log.window 6 accentOctets) = .ok [.int 7, .int 8] := rfl
  exact ⟨hwide, rfl, (hnarrower.1 accentOctets).2.2 _ hwide,
    hnarrower.2 (bookLog 3).directory _ {} [.int 8, .int 7] rfl⟩

end Sink

end FormulaBook
