import FormulaBook.Json.Printer
import FormulaBook.Json.Reader
import FormulaBook.Proofs.Decimal.Digits
import FormulaBook.Proofs.Text.Halves
import Mathlib.Data.List.Chain

/-!
# Texts in JSON

A text is written in printable ASCII characters, and reading them gives back its code points. The
two halves of a pair are written like the one character that the pair stands for, so where they meet
in a text this character is read; in a text without halves they never do.

* `Unpaired`, `HalvesApart`: texts in which the two halves of a pair do not meet;
* `joinPairs`, `joined`: code points, and a text, in which halves that meet are joined, with
  `joined_eq_iff`;
* `Escapes`, `escapes_escape`: the written forms of a character;
* `isPlain_of_mem_renderText`: the characters of a text that is written;
* `unit?_hex`, `textBody_unitEscape`: the digits of a unit denote it, and what it does when read;
* `textBody_escapeCode`: what a code point that is written does to what has been read;
* `textBody_flatMap_escapeCode`, `lexeme?_renderText`: a text that is written is read with its
  halves joined.
-/

namespace FormulaBook

namespace Text

/-- Whether a code point is the first half of a pair. -/
def isFirstHalf (code : Nat) : Bool := 0xD800 ≤ code && code < 0xDC00

/-- Whether a code point is the second half of a pair. -/
def isSecondHalf (code : Nat) : Bool := 0xDC00 ≤ code && code < 0xE000

theorem isFirstHalf_iff {code : Nat} : isFirstHalf code = true ↔ 0xD800 ≤ code ∧ code < 0xDC00 := by
  rw [isFirstHalf, Bool.and_eq_true, decide_eq_true_eq, decide_eq_true_eq]

theorem isSecondHalf_iff {code : Nat} :
    isSecondHalf code = true ↔ 0xDC00 ≤ code ∧ code < 0xE000 := by
  rw [isSecondHalf, Bool.and_eq_true, decide_eq_true_eq, decide_eq_true_eq]

theorem isHalf_iff {code : Nat} :
    isHalf code = true ↔ isFirstHalf code = true ∨ isSecondHalf code = true := by
  rw [isHalf, Bool.and_eq_true, decide_eq_true_eq, decide_eq_true_eq, isFirstHalf_iff,
    isSecondHalf_iff]
  omega

/-- Two code points that are not the two halves of a pair. -/
def Unpaired (a b : Nat) : Prop := isFirstHalf a = true → isSecondHalf b = false

/-- A text in which no first half of a pair stands directly in front of a second one. -/
def HalvesApart (s : String) : Prop := (codes s).IsChain Unpaired

/-- The code point that two halves of a pair stand for. -/
def pairCode (first second : Nat) : Nat := 0x10000 + (first - 0xD800) * 0x400 + (second - 0xDC00)

/-- Code points with the one that they stand for in the place of two halves of a pair that meet. -/
def joinPairs : List Nat → List Nat
  | a :: b :: rest =>
    if isFirstHalf a && isSecondHalf b then pairCode a b :: joinPairs rest
    else a :: joinPairs (b :: rest)
  | l => l

/-- A text with its halves joined where they meet. -/
def joined (s : String) : String := ofCodes (joinPairs (codes s))

theorem joinPairs_of_isChain {l : List Nat} (h : l.IsChain Unpaired) : joinPairs l = l := by
  induction l with
  | nil => rfl
  | cons a l ih =>
    cases l with
    | nil => rfl
    | cons b l =>
      obtain ⟨hab, hrest⟩ := List.isChain_cons_cons.1 h
      have hapart : ¬ (isFirstHalf a && isSecondHalf b) = true := by
        rw [Bool.and_eq_true]
        rintro ⟨hfirst, hsecond⟩
        rw [hab hfirst] at hsecond
        cases hsecond
      rw [joinPairs, if_neg hapart, ih hrest]

/-- A text in which no halves meet stays as it is. -/
theorem joined_of_halvesApart {s : String} (h : HalvesApart s) : joined s = s := by
  rw [joined, joinPairs_of_isChain h, ofCodes_codes]

/-- A code point that is not the first half of a pair stays as it is. -/
theorem joinPairs_cons {a : Nat} (h : isFirstHalf a = false) (l : List Nat) :
    joinPairs (a :: l) = a :: joinPairs l := by
  cases l with
  | nil => rfl
  | cons b l => rw [joinPairs, h, Bool.false_and, if_neg Bool.false_ne_true]

/-- In a text that holds no halves none meet. -/
theorem halvesApart_of_not_holdsHalf {s : String} (h : holdsHalf s = false) : HalvesApart s := by
  rw [holdsHalf, List.any_eq_false] at h
  refine (List.pairwise_of_forall_mem_list ?_).isChain
  intro a ha b _ hfirst
  exact absurd (isHalf_iff.2 (.inl hfirst)) (h a ha)

theorem toNat_lt (c : Char) : c.toNat < 0x110000 := by
  rcases c.valid with h | h
  · exact Nat.lt_trans h (by omega)
  · exact h.2

theorem lt_of_mem_codesFrom {marks : Nat} {cs : List Char} :
    ∀ code ∈ codesFrom marks [] cs, code < 0x110000 := by
  have hmarks (m : Nat) : ∀ code ∈ List.replicate m halfMarkCode, code < 0x110000 := by
    intro code hcode
    rw [List.eq_of_mem_replicate hcode]
    decide
  induction cs generalizing marks with
  | nil => simpa [codesFrom] using hmarks marks
  | cons c cs ih =>
    have hc := toNat_lt c
    rw [codesFrom]
    split
    · exact ih
    split
    · rw [codesFrom_eq_append]
      simp only [List.reverse_cons, List.reverse_append, List.forall_mem_append,
        List.forall_mem_singleton, List.reverse_replicate]
      refine ⟨⟨⟨by simp, hmarks _⟩, ?_⟩, ih⟩
      split <;> omega
    · rw [codesFrom_eq_append]
      simp only [List.reverse_cons, List.reverse_append, List.forall_mem_append,
        List.forall_mem_singleton, List.reverse_replicate]
      exact ⟨⟨⟨by simp, hmarks _⟩, hc⟩, ih⟩

theorem lt_of_mem_codes {s : String} : ∀ code ∈ codes s, code < 0x110000 := lt_of_mem_codesFrom

/-- Two halves stand for a code point beyond the first 65536. -/
theorem pairCode_bounds {a b : Nat} (h : (isFirstHalf a && isSecondHalf b) = true) :
    0x10000 ≤ pairCode a b ∧ pairCode a b < 0x110000 := by
  rw [Bool.and_eq_true, isFirstHalf_iff, isSecondHalf_iff] at h
  unfold pairCode
  omega

theorem lt_of_mem_joinPairs {l : List Nat} (h : ∀ code ∈ l, code < 0x110000) :
    ∀ code ∈ joinPairs l, code < 0x110000 := by
  fun_induction joinPairs l with
  | case1 a b rest hpair ih =>
    rw [List.forall_mem_cons, List.forall_mem_cons] at h
    exact List.forall_mem_cons.2 ⟨(pairCode_bounds hpair).2, ih h.2.2⟩
  | case2 a b rest _ ih =>
    rw [List.forall_mem_cons] at h
    exact List.forall_mem_cons.2 ⟨h.1, ih h.2⟩
  | case3 => exact h

/-- Nothing was joined if the outcome holds no code point that two halves stand for. -/
theorem eq_of_joinPairs {l m : List Nat} (h : joinPairs l = m) (hm : ∀ code ∈ m, code < 0x10000) :
    l = m := by
  fun_induction joinPairs l generalizing m with
  | case1 a b rest hpair =>
    subst h
    have := (pairCode_bounds hpair).1
    have := hm (pairCode a b) List.mem_cons_self
    omega
  | case2 a b rest _ ih =>
    subst h
    rw [List.forall_mem_cons] at hm
    rw [← ih rfl hm.2]
  | case3 => exact h

theorem halvesApart_of_ascii {s : String} (h : IsAscii s) : HalvesApart s :=
  halvesApart_of_not_holdsHalf (holdsHalf_of_ascii h)

/-- A text is read as a text of ASCII characters only if it is that text. -/
theorem joined_eq_iff {s t : String} (ht : IsAscii t) : joined s = t ↔ s = t := by
  have hcodes : ∀ code ∈ codes t, code < 0x80 := by
    rw [codes, codesOfChars_of_ascii ht]
    exact List.forall_mem_map.2 ht
  constructor
  · intro h
    have hjoin : joinPairs (codes s) = codes t := by
      rw [← h, joined, codes_ofCodes (lt_of_mem_joinPairs lt_of_mem_codes)]
    have hsame := eq_of_joinPairs hjoin fun code hcode =>
      Nat.lt_trans (hcodes code hcode) (by decide)
    rw [← ofCodes_codes s, hsame, ofCodes_codes]
  · rintro rfl
    exact joined_of_halvesApart (halvesApart_of_ascii ht)

end Text

namespace Json

open Text Decimal

/-! ### Written texts -/

theorem isPlain_of_mem_unitEscape {u : Nat} : ∀ c ∈ unitEscape u, isPlain c = true := by
  simp only [unitEscape, List.forall_mem_cons]
  exact ⟨rfl, rfl, isPlain_of_mem_hex⟩

/-- The written forms of a character: a backslash and the letter that stands for it, itself, or its
units. -/
inductive Escapes (d : Char) : List Char → Prop
  | letter {e : Char} (hplain : isPlain e = true) (hu : e ≠ 'u') (h : escaped? e = some d) :
      Escapes d ['\\', e]
  | itself (hplain : isPlain d = true) (hquote : d ≠ '"') (hslash : d ≠ '\\') : Escapes d [d]
  | unit (h : d.toNat < 0x10000) : Escapes d (unitEscape d.toNat)
  | pair (h : 0x10000 ≤ d.toNat) : Escapes d
      (unitEscape (0xD800 + (d.toNat - 0x10000) / 0x400) ++
        unitEscape (0xDC00 + (d.toNat - 0x10000) % 0x400))

theorem escapes_escape (d : Char) : Escapes d (escape d) := by
  have hletter {e : Char} (hplain : isPlain e = true) (hu : e ≠ 'u') {d' : Char}
      (he : escaped? e = some d') (hd : (d == d') = true) : Escapes d ['\\', e] :=
    .letter hplain hu (he.trans (congrArg some (eq_of_beq hd).symm))
  unfold escape
  split
  · rename_i h
    rcases Bool.or_eq_true_iff.1 h with hquote | hslash
    · rw [eq_of_beq hquote]
      exact .letter rfl (by decide) rfl
    · rw [eq_of_beq hslash]
      exact .letter rfl (by decide) rfl
  rename_i hquote
  split
  · exact hletter rfl (by decide) rfl ‹_›
  split
  · exact hletter rfl (by decide) rfl ‹_›
  split
  · exact hletter rfl (by decide) rfl ‹_›
  split
  · exact hletter rfl (by decide) rfl ‹_›
  split
  · exact hletter rfl (by decide) rfl ‹_›
  split
  · rename_i hplain
    simp only [Bool.or_eq_true, beq_iff_eq, not_or] at hquote
    exact .itself hplain hquote.1 hquote.2
  split
  · exact .unit ‹_›
  · exact .pair (Nat.le_of_not_lt ‹_›)

theorem isPlain_of_mem_escape {d : Char} : ∀ c ∈ escape d, isPlain c = true := by
  have h := escapes_escape d
  generalize escape d = l at h
  cases h with
  | letter hplain => exact List.forall_mem_cons.2 ⟨rfl, List.forall_mem_singleton.2 hplain⟩
  | itself hplain => exact List.forall_mem_singleton.2 hplain
  | unit => exact isPlain_of_mem_unitEscape
  | pair => exact List.forall_mem_append.2 ⟨isPlain_of_mem_unitEscape, isPlain_of_mem_unitEscape⟩

theorem isPlain_of_mem_renderText {s : String} :
    ∀ c ∈ (renderText s).toList, isPlain c = true := by
  rw [renderText, String.toList_ofList]
  simp only [List.cons_append, List.forall_mem_cons, List.forall_mem_append,
    List.forall_mem_flatMap]
  refine ⟨rfl, fun code _ => ?_, rfl, by simp⟩
  unfold escapeCode
  split
  · exact isPlain_of_mem_unitEscape
  · exact isPlain_of_mem_escape

theorem renderText_ne_nil (s : String) : (renderText s).toList ≠ [] := by
  simp [renderText]

/-! ### Units -/

theorem hexValue?_digitChar : ∀ k < 16, hexValue? k.digitChar = some k := by decide

/-- The four digits of a unit denote it. -/
theorem unit?_hex {u : Nat} (h : u < 0x10000) :
    ∃ a b c d, unitEscape u = ['\\', 'u', a, b, c, d] ∧ unit? a b c d = some u := by
  refine ⟨_, _, _, _, congrArg ('\\' :: 'u' :: ·) (hex_four h), ?_⟩
  have hfirst := hexValue?_digitChar (u / 4096) (by omega)
  have hsecond := hexValue?_digitChar (u / 256 % 16) (by omega)
  have hthird := hexValue?_digitChar (u / 16 % 16) (by omega)
  have hfourth := hexValue?_digitChar (u % 16) (by omega)
  simp only [unit?, hfirst, hsecond, hthird, hfourth, Option.pure_def, Option.bind_eq_bind,
    Option.bind_some, Option.some.injEq]
  omega

variable {u code : Nat} {first : Option Nat} {out : List Nat} {l rest : List Char}

/-- What a unit that is written does to what has been read: the first half of a pair is held, and
the second one completes the pair if there is a first one before it. -/
theorem textBody_unitEscape (hu : u < 0x10000) (first : Option Nat) (out : List Nat)
    (l : List Char) : textBody first out (unitEscape u ++ l) =
      if isFirstHalf u then textBody (some u) (flush first out) l
      else match first.filter fun _ => isSecondHalf u with
        | some f => textBody none (pairCode f u :: out) l
        | none => textBody none (u :: flush first out) l := by
  obtain ⟨a, b, c, d, hescape, hunit⟩ := unit?_hex hu
  rw [hescape]
  show textBody first out ('\\' :: 'u' :: a :: b :: c :: d :: l) = _
  cases first with
  | none =>
    have hheld : (isHalf u && decide (u < 0xDC00)) = isFirstHalf u := by
      rw [Bool.eq_iff_iff, Bool.and_eq_true, decide_eq_true_eq, isHalf_iff, isFirstHalf_iff,
        isSecondHalf_iff]
      omega
    rw [textBody.eq_5 out a b c d l u hunit, hheld]
    rfl
  | some f =>
    have hpaired : (decide (0xDC00 ≤ u) && decide (u < 0xE000)) = isSecondHalf u := rfl
    rw [textBody.eq_4 out a b c d l u f hunit, hpaired]
    cases hs : isSecondHalf u with
    | true =>
      have hnot : ¬ isFirstHalf u = true := by
        rw [isSecondHalf_iff] at hs
        rw [isFirstHalf_iff]
        omega
      rw [if_pos rfl, if_neg hnot]
      rfl
    | false =>
      have hheld : isHalf u = isFirstHalf u := by
        rw [Bool.eq_iff_iff, isHalf_iff, hs]
        simp
      rw [if_neg (by simp), hheld]
      rfl

/-- The first half of a pair is held until the next unit is read. -/
theorem textBody_firstHalf (h : isFirstHalf u = true) (first : Option Nat) (out : List Nat)
    (l : List Char) :
    textBody first out (unitEscape u ++ l) = textBody (some u) (flush first out) l := by
  have hbound := isFirstHalf_iff.1 h
  rw [textBody_unitEscape (by omega), if_pos h]

/-- Another unit that completes no pair is a code point by itself. -/
theorem textBody_unit (hu : u < 0x10000) (hfirst : isFirstHalf u = false)
    (h : ∀ f ∈ first, isSecondHalf u = false) (out : List Nat) (l : List Char) :
    textBody first out (unitEscape u ++ l) = textBody none (u :: flush first out) l := by
  have hnone : (first.filter fun _ => isSecondHalf u) = none := by
    rw [Option.filter_eq_none_iff]
    intro f hf
    rw [h f hf]
    exact Bool.false_ne_true
  rw [textBody_unitEscape hu, hfirst, if_neg Bool.false_ne_true, hnone]

/-- The two units of a character are read as that character. -/
theorem textBody_pair (hlow : 0x10000 ≤ code) (hhigh : code < 0x110000) (first : Option Nat)
    (out : List Nat) (l : List Char) :
    textBody first out (unitEscape (0xD800 + (code - 0x10000) / 0x400) ++
      (unitEscape (0xDC00 + (code - 0x10000) % 0x400) ++ l)) =
      textBody none (code :: flush first out) l := by
  have hfirst : isFirstHalf (0xD800 + (code - 0x10000) / 0x400) = true :=
    isFirstHalf_iff.2 (by omega)
  have hsecond : isSecondHalf (0xDC00 + (code - 0x10000) % 0x400) = true :=
    isSecondHalf_iff.2 (by omega)
  have hnot : ¬ isFirstHalf (0xDC00 + (code - 0x10000) % 0x400) = true := by
    rw [isFirstHalf_iff]
    omega
  have hcode : pairCode (0xD800 + (code - 0x10000) / 0x400) (0xDC00 + (code - 0x10000) % 0x400) =
      code := by
    unfold pairCode
    omega
  rw [textBody_firstHalf hfirst, textBody_unitEscape (by omega), if_neg hnot, hsecond]
  show textBody none ((_ : Nat) :: flush first out) l = _
  rw [hcode]

/-! ### Code points -/

theorem textBody_escape {d : Char} (hhalf : isHalf d.toNat = false) (first : Option Nat)
    (out : List Nat) (l : List Char) :
    textBody first out (escape d ++ l) = textBody none (d.toNat :: flush first out) l := by
  have h := escapes_escape d
  generalize escape d = written at h
  cases h with
  | letter hplain hu h =>
    rw [List.cons_append, List.singleton_append, textBody, h]
    rintro a b c d rest ⟨⟩
    exact absurd rfl hu
  | itself hplain hquote hslash =>
    have hbound := (isPlain_iff.1 hplain).1
    rw [List.singleton_append, textBody]
    · rw [if_neg]
      simp [hslash]
      omega
    · exact hquote
    · exact fun _ _ _ _ _ h => absurd h hslash
    · exact fun _ _ h => absurd h hslash
  | unit h =>
    rw [Bool.eq_false_iff, ne_eq, isHalf_iff, not_or] at hhalf
    have hsecond : isSecondHalf d.toNat = false := Bool.eq_false_iff.2 hhalf.2
    exact textBody_unit h (Bool.eq_false_iff.2 hhalf.1) (fun _ _ => hsecond) out l
  | pair h =>
    rw [List.append_assoc]
    exact textBody_pair h (toNat_lt d) first out l

/-- What a code point that is written does to what has been read: the first half of a pair is held,
and the second one completes the pair if there is a first one before it. -/
theorem textBody_escapeCode (hvalid : code < 0x110000) (first : Option Nat) (out : List Nat)
    (l : List Char) : textBody first out (escapeCode code ++ l) =
      if isFirstHalf code then textBody (some code) (flush first out) l
      else match first.filter fun _ => isSecondHalf code with
        | some f => textBody none (pairCode f code :: out) l
        | none => textBody none (code :: flush first out) l := by
  unfold escapeCode
  split
  · rename_i hhalf
    simp only [isHalf, Bool.and_eq_true, decide_eq_true_eq] at hhalf
    exact textBody_unitEscape (by omega) first out l
  · rename_i hhalf
    have hchar : (Char.ofNat code).toNat = code :=
      toNat_ofNat_of_not_isHalf hvalid (Bool.eq_false_iff.2 hhalf)
    rw [isHalf_iff, not_or, Bool.not_eq_true, Bool.not_eq_true] at hhalf
    have hnone : (first.filter fun _ => isSecondHalf code) = none := by
      rw [hhalf.2]
      exact Option.filter_eq_none_iff.2 fun _ _ => Bool.false_ne_true
    rw [textBody_escape (by rw [hchar, Bool.eq_false_iff, ne_eq, isHalf_iff]; simp [hhalf]), hchar,
      hhalf.1, if_neg Bool.false_ne_true, hnone]

/-! ### Texts -/

/-- Code points that are written are read with their halves joined, also with the first half of a
pair that is held. -/
theorem textBody_flatMap_escapeCode {codes : List Nat} (hvalid : ∀ code ∈ codes, code < 0x110000)
    (hheld : ∀ f ∈ first, isFirstHalf f = true) (out : List Nat) (rest : List Char) :
    textBody first out (codes.flatMap escapeCode ++ '"' :: rest) =
      some (out.reverse ++ joinPairs (first.toList ++ codes), rest) := by
  induction codes generalizing first out with
  | nil => cases first <;> simp [textBody, flush, joinPairs]
  | cons code codes ih =>
    rw [List.forall_mem_cons] at hvalid
    have hnot : ∀ f ∈ (none : Option Nat), isFirstHalf f = true := by
      rintro f ⟨⟩
    rw [List.flatMap_cons, List.append_assoc, textBody_escapeCode hvalid.1]
    cases hfirst : isFirstHalf code with
    | true =>
      have hsecond : isSecondHalf code = false := by
        rw [Bool.eq_false_iff, ne_eq, isSecondHalf_iff]
        rw [isFirstHalf_iff] at hfirst
        omega
      have hheld' : ∀ f ∈ some code, isFirstHalf f = true := by
        rintro f ⟨⟩
        exact hfirst
      rw [if_pos rfl, ih hvalid.2 hheld']
      cases first with
      | none => rfl
      | some f => simp [flush, joinPairs, hsecond]
    | false =>
      rw [if_neg Bool.false_ne_true]
      cases first with
      | none =>
        show textBody none (code :: out) _ = some (out.reverse ++ joinPairs (code :: codes), rest)
        rw [ih hvalid.2 hnot, joinPairs_cons hfirst]
        simp
      | some f =>
        cases hsecond : isSecondHalf code with
        | true =>
          show textBody none (pairCode f code :: out) _ = _
          rw [ih hvalid.2 hnot]
          simp [joinPairs, hheld f rfl, hsecond]
        | false =>
          show textBody none (code :: f :: out) _ = _
          rw [ih hvalid.2 hnot]
          simp [joinPairs, hsecond, joinPairs_cons hfirst]

/-- A text that is written is read with its halves joined. -/
theorem lexeme?_renderText (s : String) (rest : List Char) :
    lexeme? ((renderText s).toList ++ rest) = some (.scalar (.text (joined s)), rest) := by
  have hbody : textBody none [] ((codes s).flatMap escapeCode ++ '"' :: rest) =
      some (joinPairs (codes s), rest) :=
    textBody_flatMap_escapeCode lt_of_mem_codes (by rintro f ⟨⟩) [] rest
  rw [renderText, String.toList_ofList, List.cons_append, List.cons_append, List.append_assoc]
  show (textBody none [] ((codes s).flatMap escapeCode ++ '"' :: rest)).map _ = _
  rw [hbody]
  rfl

end Json

end FormulaBook
