import FormulaBook.Proofs.Text.Ascii
import Mathlib.Data.List.DropRight

/-!
# Behind an open line

An ASCII character ends whatever character is open before it, of which some octets are missing, and
a line break ends the open line. What stands behind them is therefore read as if nothing stood
before it, whatever the octets before it are. What is written behind a line that nothing has ended
makes that line longer.

* `Utf8.Pending.IsWide`, `Utf8.isWide_of_foldl`: a character that has begun goes on with no ASCII
  character;
* `Utf8.foldl_step`: what has been read before does not count;
* `Utf8.decode_append`: the characters of some octets with an ASCII character among them;
* `lines_append`: the lines of a text with a line break in it;
* `openLine`, `closedPart`: the characters behind the last line break of a text, and those before;
* `lines_append_line`: the lines of a text with a line written behind it.
-/

namespace FormulaBook.Text

namespace Utf8

/-! ### Octets -/

/-- A character that has begun goes on with an octet that is no ASCII character. -/
def Pending.IsWide (p : Pending) : Prop := 0x80 ≤ p.least

section Steps

variable {out : List Char} {pending : Option Pending} {b : Nat}

theorem isWide_of_first? {p : Pending} (h : first? b = some (.inr p)) : p.IsWide := by
  unfold first? at h
  repeat' split at h
  all_goals cases h
  all_goals simp [Pending.IsWide]

/-- What is to come of a character that goes on is no ASCII character. -/
theorem isWide_of_next? {p q : Pending} (h : p.next? b = some (.inr q)) : q.IsWide := by
  unfold Pending.next? at h
  repeat' split at h
  all_goals cases h
  exact Nat.le_refl 0x80

theorem isWide_of_begin : ∀ p ∈ (begin out b).2, p.IsWide := by
  intro p hp
  unfold begin at hp
  split at hp
  · cases hp
  · rename_i hfirst
    cases hp
    exact isWide_of_first? hfirst
  · cases hp

theorem isWide_of_step (h : ∀ p ∈ pending, p.IsWide) (octet : UInt8) :
    ∀ p ∈ (step (out, pending) octet).2, p.IsWide := by
  unfold step
  cases pending with
  | none => exact isWide_of_begin
  | some q =>
    dsimp only
    split
    · rintro p ⟨⟩
    · rename_i hnext
      rintro p ⟨⟩
      exact isWide_of_next? hnext
    · exact isWide_of_begin

theorem isWide_of_foldl (h : ∀ p ∈ pending, p.IsWide) (octets : List UInt8) :
    ∀ p ∈ (octets.foldl step (out, pending)).2, p.IsWide := by
  induction octets generalizing out pending with
  | nil => exact h
  | cons octet octets ih => exact ih (isWide_of_step h octet)

/-- The characters that have been read stay, and do not count for what is read behind them. -/
theorem step_eq (out : List Char) (pending : Option Pending) (octet : UInt8) :
    step (out, pending) octet =
      ((step ([], pending) octet).1 ++ out, (step ([], pending) octet).2) := by
  have hbegin (before : List Char) (b : Nat) :
      begin (before ++ out) b = ((begin before b).1 ++ out, (begin before b).2) := by
    unfold begin
    split <;> rfl
  unfold step
  cases pending with
  | none => exact hbegin [] octet.toNat
  | some q =>
    dsimp only
    split
    · rfl
    · rfl
    · exact hbegin [replacement] octet.toNat

theorem foldl_step (out : List Char) (pending : Option Pending) (octets : List UInt8) :
    octets.foldl step (out, pending) =
      ((octets.foldl step ([], pending)).1 ++ out, (octets.foldl step ([], pending)).2) := by
  induction octets generalizing out pending with
  | nil => rfl
  | cons octet octets ih =>
    rw [List.foldl_cons, List.foldl_cons, step_eq out pending octet, ih (_ ++ out),
      ← Prod.eta (step ([], pending) octet), ih (step ([], pending) octet).1, List.append_assoc]

/-- The characters read, last first, with one that cannot be finished for what has begun. -/
def finished : List Char × Option Pending → List Char
  | (out, none) => out
  | (out, some _) => replacement :: out

theorem decode_eq (octets : List UInt8) :
    decode octets = (finished (octets.foldl step ([], none))).reverse := by
  unfold decode
  rcases octets.foldl step ([], none) with ⟨out, pending⟩
  cases pending <;> rfl

/-- An ASCII character is read as such, and no character has begun behind it. -/
theorem step_of_ascii {octet : UInt8} (hascii : octet.toNat < 0x80) (out : List Char)
    (h : ∀ p ∈ pending, p.IsWide) :
    step (out, pending) octet = (Char.ofNat octet.toNat :: finished (out, pending), none) := by
  have hfirst : first? octet.toNat = some (.inl (Char.ofNat octet.toNat)) := by
    rw [first?, if_pos hascii]
  unfold step
  cases pending with
  | none =>
    dsimp only
    rw [begin, hfirst]
    rfl
  | some q =>
    have hwide : 0x80 ≤ q.least := h q rfl
    have hends : ¬ (q.least ≤ octet.toNat && octet.toNat ≤ q.greatest) = true := by
      simp only [Bool.and_eq_true, decide_eq_true_eq]
      omega
    have hnext : q.next? octet.toNat = none := by rw [Pending.next?, if_neg hends]
    dsimp only
    rw [hnext]
    dsimp only
    rw [begin, hfirst]
    rfl

end Steps

/-- What stands behind an ASCII character is read by itself, and so is what stands before it. -/
theorem decode_append {octet : UInt8} (hascii : octet.toNat < 0x80) (before after : List UInt8) :
    decode (before ++ octet :: after) =
      decode before ++ Char.ofNat octet.toNat :: decode after := by
  have hwide : ∀ p ∈ (before.foldl step ([], none)).2, p.IsWide :=
    isWide_of_foldl (by rintro p ⟨⟩) before
  have hstep := step_of_ascii hascii (before.foldl step ([], none)).1 hwide
  rw [decode_eq, List.foldl_append, List.foldl_cons, hstep, foldl_step, decode_eq, decode_eq]
  rcases after.foldl step ([], none) with ⟨out, pending⟩
  cases pending <;> simp [finished]

/-- ASCII characters behind other octets are read as such. -/
theorem decode_append_asciiOctets {cs : List Char} (h : ∀ c ∈ cs, c.toNat < 0x80)
    (before : List UInt8) : decode (before ++ asciiOctets cs) = decode before ++ cs := by
  cases cs with
  | nil => simp [asciiOctets]
  | cons c cs =>
    rw [List.forall_mem_cons] at h
    have hoctet : (UInt8.ofNat c.toNat).toNat = c.toNat := by
      rw [UInt8.toNat_ofNat']
      omega
    have hcons : asciiOctets (c :: cs) = UInt8.ofNat c.toNat :: asciiOctets cs := rfl
    rw [hcons, decode_append (by omega), hoctet, Char.ofNat_toNat, decode_asciiOctets h.2]

end Utf8

/-! ### Lines -/

/-- The lines that were finished first stay in front of the others. -/
theorem linesAfter_append_done (done earlier : List (List Char)) (line text : List Char) :
    linesAfter (done ++ earlier) line text = earlier.reverse ++ linesAfter done line text := by
  fun_induction linesAfter done line text with
  | case1 done line =>
    rw [linesAfter]
    split <;> simp
  | case2 done line rest ih => rwa [linesAfter]
  | case3 done line c rest hsingle hbreak ih => rwa [linesAfter.eq_3 _ _ _ _ hsingle, if_pos hbreak]
  | case4 done line c rest hsingle hbreak ih => rwa [linesAfter.eq_3 _ _ _ _ hsingle, if_neg hbreak]

/-- A line break ends the open line, and the lines behind it are read by themselves. -/
theorem linesAfter_append_break {c : Char} {rest : List Char} (hbreak : isLineBreak c = true)
    (hpair : ∀ after, c = '\r' → rest ≠ '\n' :: after) (done : List (List Char))
    (line text : List Char) :
    linesAfter done line (text ++ c :: rest) =
      linesAfter done line (text ++ [c]) ++ lines rest := by
  have hends (done : List (List Char)) (line rest : List Char) :
      linesAfter (line.reverse :: done) [] rest =
        linesAfter (line.reverse :: done) [] [] ++ lines rest :=
    linesAfter_append_done [] (line.reverse :: done) [] rest
  -- Only a carriage return at the end of the text has another meaning with a line feed behind it.
  have hstays {d : Char} {text : List Char} (hlast : ¬ (d = '\r' ∧ text = [] ∧ c = '\n'))
      (hsingle : ∀ after, d = '\r' → text = '\n' :: after → False) (rest : List Char) :
      ∀ after, d = '\r' → text ++ c :: rest = '\n' :: after → False := by
    intro after hd heq
    cases text with
    | nil => exact hlast ⟨hd, rfl, (List.cons.inj heq).1⟩
    | cons e text =>
      cases heq
      exact hsingle text hd rfl
  fun_induction linesAfter done line text with
  | case1 done line =>
    rw [List.nil_append, List.nil_append,
      linesAfter.eq_3 _ _ _ _ fun after hc hrest => hpair after hc hrest, if_pos hbreak,
      linesAfter.eq_3 _ _ _ _ (by simp), if_pos hbreak]
    exact hends done line rest
  | case2 done line text ih => exact ih
  | case3 done line d text hsingle hd ih =>
    by_cases hlast : d = '\r' ∧ text = [] ∧ c = '\n'
    · obtain ⟨rfl, rfl, rfl⟩ := hlast
      exact hends done line rest
    · rw [List.cons_append, linesAfter.eq_3 _ _ _ _ (hstays hlast hsingle rest), if_pos hd,
        List.cons_append, linesAfter.eq_3 _ _ _ _ (hstays hlast hsingle []), if_pos hd]
      exact ih
  | case4 done line d text hsingle hd ih =>
    have hlast : ¬ (d = '\r' ∧ text = [] ∧ c = '\n') := by
      rintro ⟨rfl, -⟩
      exact hd rfl
    rw [List.cons_append, linesAfter.eq_3 _ _ _ _ (hstays hlast hsingle rest), if_neg hd,
      List.cons_append, linesAfter.eq_3 _ _ _ _ (hstays hlast hsingle []), if_neg hd]
    exact ih

/-- The lines of a text behind a line break are those that it has by itself. -/
theorem lines_append {c : Char} {rest : List Char} (hbreak : isLineBreak c = true)
    (hpair : ∀ after, c = '\r' → rest ≠ '\n' :: after) (text : List Char) :
    lines (text ++ c :: rest) = lines (text ++ [c]) ++ lines rest :=
  linesAfter_append_break hbreak hpair [] [] text

/-! ### The open line -/

section OpenLine

variable {text line : List Char}

/-- The characters of a text behind its last line break: the line that nothing has ended. -/
def openLine (text : List Char) : List Char := text.rtakeWhile fun c => !isLineBreak c

/-- A text up to its last line break. -/
def closedPart (text : List Char) : List Char := text.rdropWhile fun c => !isLineBreak c

theorem closedPart_append_openLine (text : List Char) : closedPart text ++ openLine text = text :=
  List.rdropWhile_append_rtakeWhile

theorem not_isLineBreak_of_mem_openLine : ∀ c ∈ openLine text, isLineBreak c = false := by
  intro c hc
  simpa using List.mem_rtakeWhile_imp hc

/-- Nothing is open at the end of a text that is empty or ends with a line break. -/
theorem openLine_eq_nil (h : ∀ hne : text ≠ [], isLineBreak (text.getLast hne) = true) :
    openLine text = [] :=
  List.rtakeWhile_eq_nil_iff.2 fun hne => by simp [h hne]

/-- A part that is closed is empty or ends with a line break. -/
theorem closedPart_cases (text : List Char) :
    closedPart text = [] ∨ ∃ before c, closedPart text = before ++ [c] ∧ isLineBreak c = true := by
  by_cases hne : closedPart text = []
  · exact .inl hne
  · refine .inr ⟨_, _, (List.dropLast_append_getLast hne).symm, ?_⟩
    have hlast := List.rdropWhile_last_not (fun c => !isLineBreak c) text hne
    simpa [closedPart] using hlast

/-- A line that is written behind a text makes its open line longer and ends it. -/
theorem lines_append_line (hline : ∀ c ∈ line, isLineBreak c = false) (hne : line ≠ [])
    (text : List Char) :
    lines (text ++ (line ++ ['\n'])) = lines (closedPart text) ++ [openLine text ++ line] := by
  have hlast : lines (openLine text ++ line ++ ['\n']) = [openLine text ++ line] := by
    have hopen : ∀ c ∈ openLine text, isLineBreak c = false := not_isLineBreak_of_mem_openLine
    have h := lines_flatMap (List.forall_mem_singleton.2 (List.forall_mem_append.2 ⟨hopen, hline⟩))
    rwa [List.flatMap_singleton] at h
  conv_lhs => rw [← closedPart_append_openLine text]
  obtain hclosed | ⟨before, c, hclosed, hbreak⟩ := closedPart_cases text
  · rw [hclosed, List.nil_append, ← List.append_assoc, hlast, lines_nil, List.nil_append]
  · -- What stands behind the last line break begins with no line feed.
    have hpair : ∀ after, c = '\r' → openLine text ++ line ++ ['\n'] ≠ '\n' :: after := by
      rintro after - heq
      obtain ⟨d, rest, hd⟩ := List.exists_cons_of_ne_nil
        (List.append_ne_nil_of_right_ne_nil (openLine text) hne)
      have hmem : d ∈ openLine text ++ line := hd ▸ List.mem_cons_self
      rw [hd] at heq
      obtain rfl : d = '\n' := (List.cons.inj heq).1
      obtain hopen | hwritten := List.mem_append.1 hmem
      · cases not_isLineBreak_of_mem_openLine _ hopen
      · cases hline _ hwritten
    have hsplit : before ++ [c] ++ openLine text ++ (line ++ ['\n']) =
        before ++ c :: (openLine text ++ line ++ ['\n']) := by simp
    rw [hclosed, hsplit, lines_append hbreak hpair, hlast]

end OpenLine

end FormulaBook.Text
