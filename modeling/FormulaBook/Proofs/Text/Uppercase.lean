import FormulaBook.Text.Blank
import FormulaBook.Text.CodePoint
import FormulaBook.Text.Uppercase
import Mathlib.Data.List.Basic
import Mathlib.Tactic.Common

/-!
# Capital letters stay as they are

The uppercase of a character is its own uppercase, and it is a blank only if the character is one.

* `forall_ascii`: what can be decided for each ASCII character;
* `Span`, `Span.isFixed`: code points that the two tables leave alone, and a check for them;
* `Span.upperChar_of_mem`: each of them is its own uppercase, and none is a blank;
* `isFixed_runs`, `isFixed_sequences`: the check holds of all that the tables lead to;
* `upperChar_cases`: the uppercase of a character, from the two tables;
* `upper_eq_empty`: an uppercase that is empty;
* `upperChar_of_mem_upperChar`, `upper_upper`: the uppercase of an uppercase;
* `not_isBlank_of_mem_upperChar`: no other character becomes a blank.
-/

namespace FormulaBook.Text

/-- What holds of each ASCII character by itself. -/
theorem forall_ascii {P : Char → Prop} (h : ∀ n < 0x80, P (Char.ofNat n)) {c : Char}
    (hc : c.toNat < 0x80) : P c := by
  have hP := h c.toNat hc
  rwa [Char.ofNat_toNat] at hP

/-- A character that is in no run is its own uppercase if that is one character. -/
theorem upperSingle_eq_self {c : Char} (h : ∀ run ∈ uppercaseRuns,
    (run.1 ≤ c.toNat && c.toNat ≤ run.2.1 && (c.toNat - run.1) % run.2.2.1 == 0) = false) :
    upperSingle c = c := by
  unfold upperSingle alongRuns
  split
  · rename_i first last step shift hfind
    have hin := Array.find?_some hfind
    have hnot := h _ (Array.mem_of_find?_eq_some hfind)
    dsimp only at hin hnot
    rw [hnot] at hin
    cases hin
  · rfl

/-! ### Spans of code points -/

/-- The code points from `first` to `last`, or only every other one of them. -/
structure Span where
  first : Nat
  last : Nat
  alternates : Bool

namespace Span

/-- The members of a span. -/
def Mem (s : Span) (n : Nat) : Prop :=
  s.first ≤ n ∧ n ≤ s.last ∧ (s.alternates = true → n % 2 = s.first % 2)

/-- Whether no member of a span is one of a run: they are apart, or each takes every other code
point of one place. -/
def misses (s : Span) (run : Nat × Nat × Nat × Int) : Bool :=
  Nat.blt s.last run.1 || Nat.blt run.2.1 s.first ||
    (s.alternates && run.2.2.1 == 2 && s.first % 2 != run.1 % 2)

/-- Whether all members of a span are capital letters of ASCII, or characters beyond ASCII that are
no blanks. -/
def isPlaced (s : Span) : Bool :=
  (0x41 ≤ s.first && s.last ≤ 0x5A) || (0xA0 < s.first && s.last < 0x1680) ||
    (0x1680 < s.first && s.last < 0x2000) || (0x205F < s.first && s.last < 0x3000) ||
    (0x3000 < s.first && s.last < 0xD800) || (0xDFFF < s.first && s.last < 0x110000)

/-- Whether the tables leave all members of a span alone. -/
def isFixed (s : Span) : Bool :=
  s.isPlaced && uppercaseRuns.toList.all s.misses &&
    uppercaseSequences.toList.all fun entry => Nat.blt s.last entry.1 || Nat.blt entry.1 s.first

/-- The code points that a run leads to. -/
def ofRun (run : Nat × Nat × Nat × Int) : Span where
  first := (run.1 + run.2.2.2).toNat
  last := (run.2.1 + run.2.2.2).toNat
  alternates := run.2.2.1 == 2 || run.1 == run.2.1

/-- One code point. -/
def single (n : Nat) : Span := ⟨n, n, true⟩

variable {s : Span} {n : Nat}

theorem not_mem_of_misses {run : Nat × Nat × Nat × Int} (h : s.misses run = true) (hn : s.Mem n) :
    (run.1 ≤ n && n ≤ run.2.1 && (n - run.1) % run.2.2.1 == 0) = false := by
  obtain ⟨first, last, step, shift⟩ := run
  obtain ⟨hlow, hhigh, hplace⟩ := hn
  simp only [misses, Bool.or_eq_true, Bool.and_eq_true, Nat.blt_eq, beq_iff_eq, bne_iff_ne] at h
  refine Bool.eq_false_iff.2 fun hin => ?_
  simp only [Bool.and_eq_true, decide_eq_true_eq, beq_iff_eq] at hin
  obtain ⟨⟨hfirst, hlast⟩, hstep⟩ := hin
  obtain (hbefore | hafter) | ⟨⟨halternates, rfl⟩, hother⟩ := h
  · omega
  · omega
  · have := hplace halternates
    omega

theorem first_pos_of_isPlaced (h : s.isPlaced = true) : 0 < s.first := by
  simp only [isPlaced, Bool.or_eq_true, Bool.and_eq_true, decide_eq_true_eq] at h
  omega

/-- The code points of a span that is well placed: they are characters and no blanks, and those of
ASCII are capital letters. -/
theorem of_isPlaced (hplaced : s.isPlaced = true) (hn : s.Mem n) :
    (Char.ofNat n).toNat = n ∧ isBlank (Char.ofNat n) = false ∧ (n < 0x80 → n ≤ 0x5A) := by
  simp only [isPlaced, Bool.or_eq_true, Bool.and_eq_true, decide_eq_true_eq] at hplaced
  obtain ⟨hlow, hhigh, -⟩ := hn
  have hcode : (Char.ofNat n).toNat = n := by
    refine toNat_ofNat ?_
    simp only [Nat.isValidChar]
    omega
  refine ⟨hcode, ?_, by omega⟩
  simp only [isBlank, hcode, Bool.or_eq_false_iff, Bool.and_eq_false_iff, decide_eq_false_iff_not,
    beq_eq_false_iff_ne]
  omega

/-- A member of a span that the tables leave alone is its own uppercase and no blank. -/
theorem upperChar_of_mem (hfixed : s.isFixed = true) (hn : s.Mem n) :
    upperChar (Char.ofNat n) = [Char.ofNat n] ∧ isBlank (Char.ofNat n) = false := by
  simp only [isFixed, Bool.and_eq_true, List.all_eq_true, Array.mem_toList_iff] at hfixed
  obtain ⟨⟨hplaced, hruns⟩, hsequences⟩ := hfixed
  obtain ⟨hcode, hblank, hascii⟩ := of_isPlaced hplaced hn
  refine ⟨?_, hblank⟩
  by_cases hsmall : n < 0x80
  · have hcapital : ∀ k < 0x5B, (Char.ofNat k).toUpper = Char.ofNat k := by decide +kernel
    rw [upperChar, hcode, if_pos hsmall, hcapital n (by have := hascii hsmall; omega)]
  · have hsequence : uppercaseSequences.find? (·.1 == n) = none := by
      rw [Array.find?_eq_none]
      intro entry hentry hkey
      have hapart := hsequences entry hentry
      simp only [Bool.or_eq_true, Nat.blt_eq] at hapart
      obtain ⟨hlow, hhigh, -⟩ := hn
      have := eq_of_beq hkey
      omega
    have hrun : upperSingle (Char.ofNat n) = Char.ofNat n := upperSingle_eq_self fun run hmem => by
      rw [hcode]
      exact not_mem_of_misses (hruns run hmem) hn
    simp only [upperChar, hcode, if_neg hsmall, hsequence, hrun]

end Span

/-! ### The tables -/

theorem isFixed_runs : (uppercaseRuns.toList.all fun run => (Span.ofRun run).isFixed) = true := by
  decide +kernel

theorem isFixed_sequences : ((uppercaseSequences.toList.flatMap (·.2)).eraseDups.all fun n =>
    (Span.single n).isFixed) = true := by
  decide +kernel

theorem Span.mem_single (n : Nat) : (single n).Mem n :=
  ⟨Nat.le_refl n, Nat.le_refl n, fun _ => rfl⟩

/-- A member of a run becomes a member of the span that the run leads to. -/
theorem Span.mem_ofRun {run : Nat × Nat × Nat × Int} (hrun : run ∈ uppercaseRuns) {n : Nat}
    (hfirst : run.1 ≤ n) (hlast : n ≤ run.2.1) (hstep : (n - run.1) % run.2.2.1 = 0) :
    (ofRun run).Mem (n + run.2.2.2).toNat := by
  have hfixed := List.all_eq_true.1 isFixed_runs run (Array.mem_toList_iff.2 hrun)
  obtain ⟨first, last, step, shift⟩ := run
  dsimp only at hfirst hlast hstep
  -- No run leads below zero.
  have hplaced : 0 < ((first : Int) + shift).toNat := by
    simp only [isFixed, Bool.and_eq_true] at hfixed
    exact first_pos_of_isPlaced hfixed.1.1
  refine ⟨?_, ?_, fun halternates => ?_⟩
  · simp only [ofRun]
    omega
  · simp only [ofRun]
    omega
  · simp only [ofRun, Bool.or_eq_true, beq_iff_eq] at halternates ⊢
    obtain rfl | rfl := halternates <;> omega

/-! ### Characters -/

section Characters

variable {c d : Char}

/-- The uppercase of a character is that of ASCII, the character itself, a sequence of the table, or
one character that a run leads to. -/
theorem upperChar_cases (c : Char) :
    (c.toNat < 0x80 ∧ upperChar c = [c.toUpper]) ∨ upperChar c = [c] ∨
    (∃ codes, (c.toNat, codes) ∈ uppercaseSequences ∧ upperChar c = codes.map Char.ofNat) ∨
    ∃ run ∈ uppercaseRuns, ∃ n, (Span.ofRun run).Mem n ∧ upperChar c = [Char.ofNat n] := by
  unfold upperChar
  split
  · rename_i hascii
    exact .inl ⟨hascii, rfl⟩
  · split
    · rename_i code codes hfind
      have hcode := Array.find?_some hfind
      obtain rfl : code = c.toNat := eq_of_beq hcode
      exact .inr (.inr (.inl ⟨codes, Array.mem_of_find?_eq_some hfind, rfl⟩))
    · unfold upperSingle alongRuns
      split
      · rename_i first last step shift hfind
        have hin := Array.find?_some hfind
        simp only [Bool.and_eq_true, decide_eq_true_eq, beq_iff_eq] at hin
        have hmem := Array.mem_of_find?_eq_some hfind
        exact .inr (.inr (.inr ⟨_, hmem, _, Span.mem_ofRun hmem hin.1.1 hin.1.2 hin.2, rfl⟩))
      · exact .inr (.inl rfl)

theorem upperChar_ne_nil (c : Char) : upperChar c ≠ [] := by
  obtain ⟨-, h⟩ | h | ⟨codes, hmem, h⟩ | ⟨run, -, n, -, h⟩ := upperChar_cases c
  · simp [h]
  · simp [h]
  · have hne : ∀ s ∈ uppercaseSequences, s.2 ≠ [] := by decide +kernel
    simpa [h] using hne _ hmem
  · simp [h]

/-- What is in the uppercase of a character is its own uppercase. If it is another character, then
it is no blank. -/
theorem upperChar_of_mem_upperChar (hd : d ∈ upperChar c) :
    upperChar d = [d] ∧ (d = c ∨ isBlank d = false) := by
  obtain ⟨hascii, h⟩ | h | ⟨codes, hmem, h⟩ | ⟨run, hmem, n, hn, h⟩ := upperChar_cases c
  · obtain rfl : d = c.toUpper := List.mem_singleton.1 (h ▸ hd)
    exact forall_ascii (P := fun c => upperChar c.toUpper = [c.toUpper] ∧
      (c.toUpper = c ∨ isBlank c.toUpper = false)) (by decide +kernel) hascii
  · obtain rfl : d = c := List.mem_singleton.1 (h ▸ hd)
    exact ⟨h, .inl rfl⟩
  · obtain ⟨n, hn, rfl⟩ := List.mem_map.1 (h ▸ hd)
    have hlisted : n ∈ (uppercaseSequences.toList.flatMap (·.2)).eraseDups :=
      List.mem_eraseDups.2 (List.mem_flatMap.2 ⟨_, Array.mem_toList_iff.2 hmem, hn⟩)
    have hfixed := List.all_eq_true.1 isFixed_sequences n hlisted
    exact (Span.upperChar_of_mem hfixed (Span.mem_single n)).imp id .inr
  · obtain rfl : d = Char.ofNat n := List.mem_singleton.1 (h ▸ hd)
    have hfixed := List.all_eq_true.1 isFixed_runs run (Array.mem_toList_iff.2 hmem)
    exact (Span.upperChar_of_mem hfixed hn).imp id .inr

/-- No character that is no blank becomes one. -/
theorem not_isBlank_of_mem_upperChar (h : isBlank c = false) (hd : d ∈ upperChar c) :
    isBlank d = false := by
  obtain rfl | hblank := (upperChar_of_mem_upperChar hd).2
  · exact h
  · exact hblank

end Characters

/-- Only the empty text has an empty uppercase. -/
theorem upper_eq_empty {s : String} : upper s = "" ↔ s = "" := by
  rw [← String.toList_inj, ← String.toList_inj, toList_upper]
  show s.toList.flatMap upperChar = [] ↔ s.toList = []
  rw [List.flatMap_eq_nil_iff]
  constructor
  · intro h
    exact List.eq_nil_iff_forall_not_mem.2 fun c hc => upperChar_ne_nil c (h c hc)
  · rintro h c hc
    rw [h] at hc
    cases hc

/-- The uppercase of a text is its own uppercase. -/
theorem upper_upper (s : String) : upper (upper s) = upper s := by
  rw [← String.toList_inj, toList_upper, toList_upper]
  have hsingle : ∀ d ∈ s.toList.flatMap upperChar, upperChar d = [d] := by
    intro d hd
    obtain ⟨c, -, hd⟩ := List.mem_flatMap.1 hd
    exact (upperChar_of_mem_upperChar hd).1
  rw [List.flatMap_congr hsingle, List.flatMap_singleton']

end FormulaBook.Text
