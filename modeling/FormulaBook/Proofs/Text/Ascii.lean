import FormulaBook.Text.Lines
import FormulaBook.Text.Utf8
import Mathlib.Tactic.Common

/-!
# Plain text

The printable ASCII characters are their own code points, take one octet each and end no line. Lines
of them that are written one after another, each with a line feed after it, are found again.

* `isPlain`: the printable ASCII characters, with `holdsHalf_of_ascii`;
* `asciiOctets`: the octets of ASCII characters, with `octets_of_ascii` and `decode_asciiOctets`;
* `linesAfter_append`, `lines_flatMap`: lines that are written are the lines that are read.
-/

namespace FormulaBook.Text

/-- The printable ASCII characters. -/
def isPlain (c : Char) : Bool := ' ' ≤ c && c ≤ '~'

theorem isPlain_iff {c : Char} : isPlain c = true ↔ 0x20 ≤ c.toNat ∧ c.toNat ≤ 0x7E := by
  simp only [isPlain, Bool.and_eq_true, decide_eq_true_eq, Char.le_def, UInt32.le_iff_toNat_le]
  exact Iff.rfl

/-! ### Code points -/

section CodePoints

variable {c : Char}

theorem ne_halfMark_of_ascii (h : c.toNat < 0x80) : ¬ (c == halfMark) = true := by
  intro heq
  rw [eq_of_beq heq] at h
  exact absurd h (by decide)

theorem not_isStandIn_of_ascii (h : c.toNat < 0x80) : ¬ isStandIn c.toNat = true := by
  have hle : c.toNat ≤ standInShift := Nat.le_trans (Nat.le_of_lt h) (by decide)
  rw [isStandIn, Nat.sub_eq_zero_of_le hle]
  decide

theorem not_isHalf_of_ascii {code : Nat} (h : code < 0x80) : isHalf code = false := by
  simp only [isHalf, Bool.and_eq_false_iff, decide_eq_false_iff_not]
  omega

end CodePoints

/-! ### Octets -/

section Octets

variable {cs : List Char}

/-- The octets of ASCII characters. -/
def asciiOctets (cs : List Char) : List UInt8 := cs.map fun c => UInt8.ofNat c.toNat

theorem codesOfChars_of_ascii (h : ∀ c ∈ cs, c.toNat < 0x80) :
    codesOfChars cs = cs.map Char.toNat := by
  rw [codesOfChars]
  induction cs with
  | nil => rfl
  | cons c cs ih =>
    rw [List.forall_mem_cons] at h
    rw [codesFrom, if_neg (ne_halfMark_of_ascii h.1), if_neg (not_isStandIn_of_ascii h.1),
      codesFrom_eq_append, ih h.2]
    rfl

/-- No ASCII character stands for half of a pair. -/
theorem holdsHalf_of_ascii {s : String} (h : ∀ c ∈ s.toList, c.toNat < 0x80) :
    holdsHalf s = false := by
  rw [holdsHalf, codes, codesOfChars_of_ascii h, List.any_map, List.any_eq_false]
  exact fun c hc => by simp [not_isHalf_of_ascii (h c hc)]

theorem utf8EncodeChar_of_ascii {c : Char} (h : c.toNat < 0x80) :
    String.utf8EncodeChar c = [UInt8.ofNat c.toNat] := by
  have hle : c.val.toNat ≤ 0x7F := by
    change c.val.toNat < 0x80 at h
    omega
  simp only [String.utf8EncodeChar, hle, if_true]
  rfl

theorem encode_of_ascii (h : ∀ c ∈ cs, c.toNat < 0x80) : Utf8.encode cs = asciiOctets cs := by
  induction cs with
  | nil => rfl
  | cons c cs ih =>
    rw [List.forall_mem_cons] at h
    rw [Utf8.encode, List.flatMap_cons, utf8EncodeChar_of_ascii h.1]
    exact congrArg (UInt8.ofNat c.toNat :: ·) (ih h.2)

theorem octets_of_ascii {s : String} (h : ∀ c ∈ s.toList, c.toNat < 0x80) :
    octets s = asciiOctets s.toList := by
  have hchars : chars s = s.toList := by
    rw [chars, codes, codesOfChars_of_ascii h, List.map_map]
    simp [Function.comp_def]
  rw [octets, hchars, encode_of_ascii h]

/-- Each octet of an ASCII character is read at once. -/
theorem foldl_step_asciiOctets (h : ∀ c ∈ cs, c.toNat < 0x80) (out : List Char) :
    (asciiOctets cs).foldl Utf8.step (out, none) = (cs.reverse ++ out, none) := by
  induction cs generalizing out with
  | nil => rfl
  | cons c cs ih =>
    rw [List.forall_mem_cons] at h
    have hstep : Utf8.step (out, none) (UInt8.ofNat c.toNat) = (c :: out, none) := by
      have hoctet : (UInt8.ofNat c.toNat).toNat = c.toNat := by
        rw [UInt8.toNat_ofNat']
        omega
      simp only [Utf8.step, Utf8.begin, Utf8.first?, hoctet, h.1, if_true, Char.ofNat_toNat]
    rw [asciiOctets, List.map_cons, List.foldl_cons, hstep]
    show (asciiOctets cs).foldl Utf8.step (c :: out, none) = _
    rw [ih h.2, List.reverse_cons, List.append_assoc]
    rfl

theorem decode_asciiOctets (h : ∀ c ∈ cs, c.toNat < 0x80) : Utf8.decode (asciiOctets cs) = cs := by
  rw [Utf8.decode, foldl_step_asciiOctets h []]
  simp

end Octets

/-! ### Lines -/

section Lines

variable {line : List Char}

theorem not_isLineBreak_of_isPlain {c : Char} (h : isPlain c = true) : isLineBreak c = false := by
  rw [isPlain_iff] at h
  simp only [isLineBreak, Bool.or_eq_false_iff, Bool.and_eq_false_iff, decide_eq_false_iff_not,
    beq_eq_false_iff_ne]
  omega

/-- Characters that end no line make the open line longer. -/
theorem linesAfter_append (h : ∀ c ∈ line, isLineBreak c = false) (done : List (List Char))
    (before rest : List Char) :
    linesAfter done before (line ++ rest) = linesAfter done (line.reverse ++ before) rest := by
  induction line generalizing before with
  | nil => rfl
  | cons c line ih =>
    rw [List.forall_mem_cons] at h
    have hreturn : c ≠ '\r' := by
      rintro rfl
      exact absurd h.1 (by decide)
    rw [List.cons_append, linesAfter]
    · rw [if_neg (by simp [h.1]), ih h.2, List.reverse_cons, List.append_assoc]
      rfl
    · intro rest' heq
      exact absurd heq hreturn

theorem linesAfter_flatMap {ls : List (List Char)} (h : ∀ l ∈ ls, ∀ c ∈ l, isLineBreak c = false)
    (done : List (List Char)) :
    linesAfter done [] (ls.flatMap (· ++ ['\n'])) = done.reverse ++ ls := by
  induction ls generalizing done with
  | nil => simp [linesAfter]
  | cons l ls ih =>
    rw [List.forall_mem_cons] at h
    rw [List.flatMap_cons, List.append_assoc, linesAfter_append h.1, List.append_nil]
    show linesAfter (l.reverse.reverse :: done) [] (ls.flatMap (· ++ ['\n'])) = _
    rw [ih h.2, List.reverse_reverse, List.reverse_cons, List.append_assoc]
    rfl

/-- Lines that are written one after another are the lines that are read. -/
theorem lines_flatMap {ls : List (List Char)} (h : ∀ l ∈ ls, ∀ c ∈ l, isLineBreak c = false) :
    lines (ls.flatMap (· ++ ['\n'])) = ls :=
  linesAfter_flatMap h []

end Lines

end FormulaBook.Text
