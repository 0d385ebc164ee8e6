/-!
# Code points

UTF-16 writes a character beyond the first 65536 as a pair of units. A text may hold one half of a
pair on its own, where an escape names its unit, and no character is such a half. In a row of
characters a mark and a private character stand for it; of the marks that a text itself has in front
of such a private character, each is written twice, so that every row of characters stands for one
text and every text has one row.

* `isHalf`: the code points that are halves of pairs;
* `ofCodes`, `codes`: the text of some code points, and the code points of a text;
* `ofChars`, `chars`: the same for texts without halves;
* `size`, `precedes`, `holdsHalf`: what is asked of the code points of a text;
* `charsFrom_half`, `codesFrom_odd` and their siblings: what the first code point, or the first
  character, becomes behind some marks;
* `codes_ofCodes`, `ofCodes_codes`: code points and texts belong to each other.
-/

namespace FormulaBook.Text

/-- The code points that are halves of pairs. -/
def isHalf (code : Nat) : Bool := 0xD800 ≤ code && code < 0xE000

/-- The code point of the mark: the last one, to which no meaning is ever given. -/
def halfMarkCode : Nat := 0x10FFFF

/-- The mark in front of the private character for a half. -/
def halfMark : Char := Char.ofNat halfMarkCode

/-- How far the private character for a half is from it. -/
def standInShift : Nat := 0x100000

/-- The private character for a half. -/
def standIn (code : Nat) : Char := Char.ofNat (standInShift + code)

/-- Whether a code point is that of a private character for a half. -/
def isStandIn (code : Nat) : Bool := isHalf (code - standInShift)

/-! ### From code points to characters and back -/

/-- The characters of code points that follow `marks` marks and the characters of `out`, which are
held last first. -/
def charsFrom (marks : Nat) (out : List Char) : List Nat → List Char
  | [] => (List.replicate marks halfMark ++ out).reverse
  | code :: rest =>
    if code == halfMarkCode then charsFrom (marks + 1) out rest
    else if isHalf code then
      charsFrom 0 (standIn code :: (List.replicate (2 * marks + 1) halfMark ++ out)) rest
    else if isStandIn code then
      charsFrom 0 (Char.ofNat code :: (List.replicate (2 * marks) halfMark ++ out)) rest
    else charsFrom 0 (Char.ofNat code :: (List.replicate marks halfMark ++ out)) rest

/-- The code points of characters that follow `marks` marks and the code points of `out`, which are
held last first. -/
def codesFrom (marks : Nat) (out : List Nat) : List Char → List Nat
  | [] => (List.replicate marks halfMarkCode ++ out).reverse
  | c :: rest =>
    if c == halfMark then codesFrom (marks + 1) out rest
    else if isStandIn c.toNat then
      let code := if marks % 2 == 1 then c.toNat - standInShift else c.toNat
      codesFrom 0 (code :: (List.replicate (marks / 2) halfMarkCode ++ out)) rest
    else codesFrom 0 (c.toNat :: (List.replicate marks halfMarkCode ++ out)) rest

/-- The code points of a row of characters. -/
def codesOfChars (cs : List Char) : List Nat := codesFrom 0 [] cs

/-- The text of some code points. -/
def ofCodes (codes : List Nat) : String := String.ofList (charsFrom 0 [] codes)

/-- The code points of a text. -/
def codes (s : String) : List Nat := codesOfChars s.toList

/-- The text of some characters. -/
def ofChars (cs : List Char) : String := ofCodes (cs.map Char.toNat)

/-- The characters of a text that holds no halves. -/
def chars (s : String) : List Char := (codes s).map Char.ofNat

/-- The number of code points in a row of characters. -/
def size (cs : List Char) : Nat := (codesOfChars cs).length

/-- Whether a text comes before another one, or is the same, in the order of code points. -/
def precedes (a b : String) : Bool := !(codes b).lex (codes a) Nat.blt

/-- Whether a text holds half of a pair. -/
def holdsHalf (s : String) : Bool := (codes s).any isHalf

/-! ### Halves, private characters and marks -/

theorem toNat_ofNat {n : Nat} (h : n.isValidChar) : (Char.ofNat n).toNat = n := by
  rw [Char.ofNat, dif_pos h]
  rfl

@[simp] theorem toNat_halfMark : halfMark.toNat = halfMarkCode := rfl

theorem eq_halfMark_of_toNat {c : Char} (h : c.toNat = halfMarkCode) : c = halfMark :=
  Char.toNat_inj.1 h

theorem isHalf_iff_bounds {n : Nat} : isHalf n = true ↔ 0xD800 ≤ n ∧ n < 0xE000 := by
  simp [isHalf]

theorem isStandIn_iff_bounds {n : Nat} : isStandIn n = true ↔ 0x10D800 ≤ n ∧ n < 0x10E000 := by
  rw [isStandIn, isHalf_iff_bounds, standInShift]
  omega

/-- No character is half of a pair. -/
theorem isHalf_toNat (c : Char) : isHalf c.toNat = false := by
  have hvalid : c.toNat.isValidChar := c.valid
  rw [Bool.eq_false_iff, ne_eq, isHalf_iff_bounds]
  simp only [Nat.isValidChar] at hvalid
  omega

/-- The other code points are characters. -/
theorem toNat_ofNat_of_not_isHalf {n : Nat} (hbound : n < 0x110000) (h : isHalf n = false) :
    (Char.ofNat n).toNat = n := by
  rw [Bool.eq_false_iff, ne_eq, isHalf_iff_bounds] at h
  exact toNat_ofNat (by simp only [Nat.isValidChar]; omega)

theorem ne_halfMarkCode_of_isHalf {n : Nat} (h : isHalf n = true) : n ≠ halfMarkCode := by
  rw [isHalf_iff_bounds] at h
  simp only [halfMarkCode]
  omega

theorem ne_halfMarkCode_of_isStandIn {n : Nat} (h : isStandIn n = true) : n ≠ halfMarkCode := by
  rw [isStandIn_iff_bounds] at h
  simp only [halfMarkCode]
  omega

theorem not_isHalf_of_isStandIn {n : Nat} (h : isStandIn n = true) : isHalf n = false := by
  rw [isStandIn_iff_bounds] at h
  rw [Bool.eq_false_iff, ne_eq, isHalf_iff_bounds]
  omega

theorem toNat_standIn {n : Nat} (h : isHalf n = true) : (standIn n).toNat = standInShift + n := by
  rw [isHalf_iff_bounds] at h
  exact toNat_ofNat (by simp only [standInShift, Nat.isValidChar]; omega)

theorem isStandIn_standIn {n : Nat} (h : isHalf n = true) : isStandIn (standIn n).toNat = true := by
  rw [toNat_standIn h, isStandIn, Nat.add_sub_cancel_left, h]

/-- A private character for a half stands for the half from which it comes. -/
theorem standIn_toNat {c : Char} (h : isStandIn c.toNat = true) :
    standIn (c.toNat - standInShift) = c := by
  have hshift : standInShift + (c.toNat - standInShift) = c.toNat := by
    rw [isStandIn_iff_bounds] at h
    simp only [standInShift]
    omega
  rw [standIn, hshift, Char.ofNat_toNat]

/-! ### Code points and texts belong to each other -/

theorem charsFrom_eq_append (marks : Nat) (out : List Char) (l : List Nat) :
    charsFrom marks out l = out.reverse ++ charsFrom marks [] l := by
  induction l generalizing marks out with
  | nil => simp [charsFrom]
  | cons code rest ih =>
    rw [charsFrom, charsFrom]
    split
    · exact ih _ _
    split
    · rw [ih, ih _ (_ :: (_ ++ []))]
      simp
    split
    · rw [ih, ih _ (_ :: (_ ++ []))]
      simp
    · rw [ih, ih _ (_ :: (_ ++ []))]
      simp

theorem codesFrom_eq_append (marks : Nat) (out : List Nat) (l : List Char) :
    codesFrom marks out l = out.reverse ++ codesFrom marks [] l := by
  induction l generalizing marks out with
  | nil => simp [codesFrom]
  | cons c rest ih =>
    rw [codesFrom, codesFrom]
    split
    · exact ih _ _
    split
    · rw [ih, ih _ (_ :: (_ ++ []))]
      simp
    · rw [ih, ih _ (_ :: (_ ++ []))]
      simp

section First

variable {n : Nat} {c : Char} (marks : Nat)

theorem charsFrom_halfMarkCode (l : List Nat) :
    charsFrom marks [] (halfMarkCode :: l) = charsFrom (marks + 1) [] l := by
  rw [charsFrom, if_pos (beq_self_eq_true _)]

/-- A half is written as a mark of its own and a private character, behind twice the marks. -/
theorem charsFrom_half (h : isHalf n = true) (l : List Nat) : charsFrom marks [] (n :: l) =
    List.replicate (2 * marks + 1) halfMark ++ standIn n :: charsFrom 0 [] l := by
  rw [charsFrom, if_neg (by simpa using ne_halfMarkCode_of_isHalf h), if_pos h,
    charsFrom_eq_append]
  simp

theorem charsFrom_standIn (h : isStandIn n = true) (l : List Nat) : charsFrom marks [] (n :: l) =
    List.replicate (2 * marks) halfMark ++ Char.ofNat n :: charsFrom 0 [] l := by
  rw [charsFrom, if_neg (by simpa using ne_halfMarkCode_of_isStandIn h),
    if_neg (by simp [not_isHalf_of_isStandIn h]), if_pos h, charsFrom_eq_append]
  simp

theorem charsFrom_other (hmark : n ≠ halfMarkCode) (hhalf : isHalf n = false)
    (hstands : isStandIn n = false) (l : List Nat) : charsFrom marks [] (n :: l) =
    List.replicate marks halfMark ++ Char.ofNat n :: charsFrom 0 [] l := by
  rw [charsFrom, if_neg (by simpa using hmark), if_neg (by simp [hhalf]),
    if_neg (by simp [hstands]), charsFrom_eq_append]
  simp

theorem codesFrom_halfMark (l : List Char) :
    codesFrom marks [] (halfMark :: l) = codesFrom (marks + 1) [] l := by
  rw [codesFrom, if_pos (beq_self_eq_true _)]

theorem codesFrom_standIn (h : isStandIn c.toNat = true) (l : List Char) :
    codesFrom marks [] (c :: l) = List.replicate (marks / 2) halfMarkCode ++
      (if marks % 2 == 1 then c.toNat - standInShift else c.toNat) :: codesFrom 0 [] l := by
  have hmark : c ≠ halfMark := fun heq =>
    ne_halfMarkCode_of_isStandIn h (by rw [heq, toNat_halfMark])
  rw [codesFrom, if_neg (by simpa using hmark), if_pos h, codesFrom_eq_append]
  simp

/-- Behind an odd number of marks a private character stands for a half. -/
theorem codesFrom_odd (h : isStandIn c.toNat = true) (l : List Char) :
    codesFrom (2 * marks + 1) [] (c :: l) =
      List.replicate marks halfMarkCode ++ (c.toNat - standInShift) :: codesFrom 0 [] l := by
  have hodd : (2 * marks + 1) % 2 = 1 := by omega
  have hcount : (2 * marks + 1) / 2 = marks := by omega
  rw [codesFrom_standIn _ h, hodd, hcount, if_pos (beq_self_eq_true 1)]

/-- Behind an even number of marks it stands for itself. -/
theorem codesFrom_even (h : isStandIn c.toNat = true) (l : List Char) :
    codesFrom (2 * marks) [] (c :: l) =
      List.replicate marks halfMarkCode ++ c.toNat :: codesFrom 0 [] l := by
  have heven : 2 * marks % 2 = 0 := by omega
  have hcount : 2 * marks / 2 = marks := by omega
  rw [codesFrom_standIn _ h, heven, hcount, if_neg (by decide)]

theorem codesFrom_other (hmark : c ≠ halfMark) (hstands : isStandIn c.toNat = false)
    (l : List Char) : codesFrom marks [] (c :: l) =
      List.replicate marks halfMarkCode ++ c.toNat :: codesFrom 0 [] l := by
  rw [codesFrom, if_neg (by simpa using hmark), if_neg (by simp [hstands]), codesFrom_eq_append]
  simp

theorem charsFrom_replicate (m : Nat) (l : List Nat) :
    charsFrom marks [] (List.replicate m halfMarkCode ++ l) = charsFrom (marks + m) [] l := by
  induction m generalizing marks with
  | zero => rfl
  | succ m ih =>
    rw [List.replicate_succ, List.cons_append, charsFrom_halfMarkCode, ih]
    congr 1
    omega

theorem codesFrom_replicate (m : Nat) (l : List Char) :
    codesFrom marks [] (List.replicate m halfMark ++ l) = codesFrom (marks + m) [] l := by
  induction m generalizing marks with
  | zero => rfl
  | succ m ih =>
    rw [List.replicate_succ, List.cons_append, codesFrom_halfMark, ih]
    congr 1
    omega

end First

/-- The row of characters of the code points that a row of characters stands for is that row. -/
theorem charsFrom_codesFrom (marks : Nat) (cs : List Char) :
    charsFrom 0 [] (codesFrom marks [] cs) = List.replicate marks halfMark ++ cs := by
  induction cs generalizing marks with
  | nil =>
    have h := charsFrom_replicate 0 marks []
    simpa [codesFrom, charsFrom] using h
  | cons c cs ih =>
    by_cases hmark : c = halfMark
    · rw [hmark, codesFrom_halfMark, ih, List.replicate_succ', List.append_assoc,
        List.singleton_append]
    cases hstands : isStandIn c.toNat with
    | true =>
      obtain ⟨m, rfl | rfl⟩ : ∃ m, marks = 2 * m ∨ marks = 2 * m + 1 := ⟨marks / 2, by omega⟩
      · rw [codesFrom_even m hstands, charsFrom_replicate, Nat.zero_add,
          charsFrom_standIn m hstands, ih, Char.ofNat_toNat]
        rfl
      · rw [codesFrom_odd m hstands, charsFrom_replicate, Nat.zero_add, charsFrom_half m hstands,
          ih, standIn_toNat hstands]
        rfl
    | false =>
      have hplain : c.toNat ≠ halfMarkCode := fun h => hmark (eq_halfMark_of_toNat h)
      rw [codesFrom_other marks hmark hstands, charsFrom_replicate, Nat.zero_add,
        charsFrom_other marks hplain (isHalf_toNat c) hstands, ih, Char.ofNat_toNat]
      rfl

/-- The code points that their row of characters stands for are those code points. -/
theorem codesFrom_charsFrom (marks : Nat) (codes : List Nat) (h : ∀ n ∈ codes, n < 0x110000) :
    codesFrom 0 [] (charsFrom marks [] codes) = List.replicate marks halfMarkCode ++ codes := by
  induction codes generalizing marks with
  | nil =>
    have h := codesFrom_replicate 0 marks []
    simpa [charsFrom, codesFrom] using h
  | cons n rest ih =>
    obtain ⟨hbound, hrest⟩ := List.forall_mem_cons.1 h
    have ih marks := ih marks hrest
    by_cases hmark : n = halfMarkCode
    · rw [hmark, charsFrom_halfMarkCode, ih, List.replicate_succ', List.append_assoc,
        List.singleton_append]
    cases hhalf : isHalf n with
    | true =>
      rw [charsFrom_half marks hhalf, codesFrom_replicate, Nat.zero_add,
        codesFrom_odd marks (isStandIn_standIn hhalf), ih, toNat_standIn hhalf,
        Nat.add_sub_cancel_left]
      rfl
    | false =>
      have hcode := toNat_ofNat_of_not_isHalf hbound hhalf
      cases hstands : isStandIn n with
      | true =>
        rw [charsFrom_standIn marks hstands, codesFrom_replicate, Nat.zero_add,
          codesFrom_even marks (by rwa [hcode]), ih, hcode]
        rfl
      | false =>
        have hplain : Char.ofNat n ≠ halfMark := fun heq =>
          hmark (by rw [← hcode, heq, toNat_halfMark])
        rw [charsFrom_other marks hmark hhalf hstands, codesFrom_replicate, Nat.zero_add,
          codesFrom_other marks hplain (by rwa [hcode]), ih, hcode]
        rfl

/-- A text is the text of its code points. -/
@[simp] theorem ofCodes_codes (s : String) : ofCodes (codes s) = s := by
  simp [ofCodes, codes, codesOfChars, charsFrom_codesFrom]

/-- Code points are those of their text. -/
theorem codes_ofCodes {l : List Nat} (h : ∀ n ∈ l, n < 0x110000) : codes (ofCodes l) = l := by
  simp [ofCodes, codes, codesOfChars, codesFrom_charsFrom 0 l h]

end FormulaBook.Text
