import FormulaBook.Json.Printer
import FormulaBook.Json.Reader
import FormulaBook.Proofs.Decimal.Digits
import FormulaBook.Proofs.Lexing.Lexemes
import Mathlib.Data.List.DropRight

/-!
# Numbers in JSON

A number is written with a sign, digits that begin with no needless zero, digits after a point and an
exponent, each of which may be absent but the first digits. It is read back as long as no character
follows that would make it longer.

* `Numeral`: the parts of a written number, with `Numeral.chars` and `Numeral.lexeme`;
* `EndsNumber`: what may follow a number;
* `number?_chars`, `lexeme?_chars`: a number that is written is read back;
* `shortest_cases`: the shortest decimal of a double is zero only if it is written as zero;
* `exists_numeral_int`, `exists_numeral_float`: whole numbers and doubles are written so.
-/

namespace FormulaBook.Json

open Text Decimal

/-- What may follow a number: no character that would make it longer. -/
def EndsNumber (rest : List Char) : Prop :=
  ∀ c ∈ rest.head?, isDigit c = false ∧ c ≠ '.' ∧ c ≠ 'e' ∧ c ≠ 'E'

/-- The digits of a whole number: a zero alone, or a row that begins with another digit. -/
def IsWhole (l : List Char) : Prop :=
  l = ['0'] ∨ (∀ c ∈ l, isDigit c = true) ∧ ∃ d rest, l = d :: rest ∧ d ≠ '0'

/-- The parts of a written number. A point is written if digits follow it. -/
structure Numeral where
  negative : Bool
  whole : List Char
  fraction : List Char := []
  /-- The sign and the digits of the exponent. -/
  power : Option (Char × List Char) := none
  isWhole : IsWhole whole
  fraction_isDigit : ∀ c ∈ fraction, isDigit c = true := by simp
  power_isSigned : ∀ p ∈ power, (p.1 = '+' ∨ p.1 = '-') ∧ p.2 ≠ [] ∧ ∀ c ∈ p.2, isDigit c = true := by
    simp

theorem IsWhole.ne_nil {l : List Char} (h : IsWhole l) : l ≠ [] := by
  rcases h with rfl | ⟨-, d, rest, rfl, -⟩ <;> simp

theorem IsWhole.isDigit {l : List Char} (h : IsWhole l) : ∀ c ∈ l, isDigit c = true := by
  rcases h with rfl | ⟨hall, -⟩
  · exact List.all_eq_true.1 rfl
  · exact hall

namespace Numeral

/-- The sign of a number. -/
def sign (n : Numeral) : List Char := if n.negative then ['-'] else []

/-- The point with the digits after it. -/
def fractionPart (n : Numeral) : List Char := if n.fraction = [] then [] else '.' :: n.fraction

/-- The exponent. -/
def powerPart (n : Numeral) : List Char := n.power.elim [] fun p => 'e' :: p.1 :: p.2

/-- The characters of a number without its sign. -/
def magnitude (n : Numeral) : List Char := n.whole ++ n.fractionPart ++ n.powerPart

/-- The characters of a number. -/
def chars (n : Numeral) : List Char := n.sign ++ n.magnitude

/-- Whether a number is written with a point or an exponent. -/
def isDouble (n : Numeral) : Bool := !(n.fractionPart.isEmpty && n.powerPart.isEmpty)

/-- The lexeme of a number. -/
def lexeme (n : Numeral) : Lexeme :=
  if n.isDouble then .scalar (.float ((Decimal.signedFloat? n.chars).getD 0))
  else .whole n.negative n.whole

theorem chars_ne_nil (n : Numeral) : n.chars ≠ [] := by
  simp [chars, magnitude, n.isWhole.ne_nil]

theorem isPlain_of_mem_chars (n : Numeral) : ∀ c ∈ n.chars, isPlain c = true := by
  have hdigits {l : List Char} (h : ∀ c ∈ l, isDigit c = true) : ∀ c ∈ l, isPlain c = true :=
    fun c hc => isPlain_of_isDigit (h c hc)
  refine List.forall_mem_append.2 ⟨?_, List.forall_mem_append.2 ⟨List.forall_mem_append.2
    ⟨hdigits n.isWhole.isDigit, ?_⟩, ?_⟩⟩
  · rw [sign]
    split <;> exact List.all_eq_true.1 rfl
  · rw [fractionPart]
    split
    · simp
    · exact List.forall_mem_cons.2 ⟨rfl, hdigits n.fraction_isDigit⟩
  · rw [powerPart]
    cases hp : n.power with
    | none => simp
    | some p =>
      obtain ⟨hsign, -, hall⟩ := n.power_isSigned p hp
      refine List.forall_mem_cons.2 ⟨rfl, List.forall_mem_cons.2 ⟨?_, hdigits hall⟩⟩
      rcases hsign with h | h <;> rw [h] <;> rfl

end Numeral

/-! ### Reading the parts -/

section Parts

variable {l rest : List Char}

theorem number?_minus (l : List Char) : number? ('-' :: l) = numberAfter ['-'] ('-' :: l) := rfl

theorem number?_unsigned {c : Char} (h : c ≠ '-') (l : List Char) :
    number? (c :: l) = numberAfter [] (c :: l) := by
  simp [number?, h]

theorem wholeDigits_append (h : IsWhole l) (hrest : ∀ c ∈ rest.head?, isDigit c = false) :
    wholeDigits (l ++ rest) = l := by
  rcases h with rfl | ⟨hall, d, tail, rfl, hd⟩
  · rfl
  · rw [List.cons_append, wholeDigits]
    · exact takeWhile_eq_left hall hrest
    · rintro tail' ⟨⟩
      exact hd rfl

theorem fractionChars_append (hne : l ≠ []) (h : ∀ c ∈ l, isDigit c = true)
    (hrest : ∀ c ∈ rest.head?, isDigit c = false) :
    fractionChars ('.' :: l ++ rest) = '.' :: l := by
  rw [List.cons_append, fractionChars, takeWhile_eq_left h hrest]
  simp [hne]

theorem fractionChars_eq_nil (h : ∀ c ∈ l.head?, c ≠ '.') : fractionChars l = [] := by
  cases l with
  | nil => rfl
  | cons c l =>
    rw [fractionChars]
    rintro rest ⟨⟩
    exact h '.' rfl rfl

theorem exponentChars_append {s : Char} (hs : s = '+' ∨ s = '-') (hne : l ≠ [])
    (h : ∀ c ∈ l, isDigit c = true) (hrest : ∀ c ∈ rest.head?, isDigit c = false) :
    exponentChars ('e' :: s :: l ++ rest) = 'e' :: s :: l := by
  rcases hs with rfl | rfl
  · simp [exponentChars, takeWhile_eq_left h hrest, hne]
  · simp [exponentChars, takeWhile_eq_left h hrest, hne]

theorem exponentChars_eq_nil (h : ∀ c ∈ l.head?, c ≠ 'e' ∧ c ≠ 'E') : exponentChars l = [] := by
  cases l with
  | nil => rfl
  | cons c l =>
    obtain ⟨hsmall, hcapital⟩ := h c rfl
    simp [exponentChars, hsmall, hcapital]

end Parts

namespace Numeral

variable (n : Numeral) {rest : List Char}

theorem isEmpty_sign : n.sign.isEmpty = !n.negative := by
  rw [sign]
  cases n.negative <;> rfl

theorem exponentChars_powerPart (h : EndsNumber rest) :
    exponentChars (n.powerPart ++ rest) = n.powerPart := by
  rw [powerPart]
  cases hp : n.power with
  | none => exact exponentChars_eq_nil fun c hc => (h c hc).2.2
  | some p =>
    obtain ⟨hsign, hne, hall⟩ := n.power_isSigned p hp
    exact exponentChars_append hsign hne hall fun c hc => (h c hc).1

theorem head_powerPart (h : EndsNumber rest) :
    ∀ c ∈ (n.powerPart ++ rest).head?, isDigit c = false ∧ c ≠ '.' := by
  rw [powerPart]
  cases n.power with
  | none => exact fun c hc => ⟨(h c hc).1, (h c hc).2.1⟩
  | some p =>
    rintro c ⟨⟩
    decide

theorem fractionChars_fractionPart (h : EndsNumber rest) :
    fractionChars (n.fractionPart ++ (n.powerPart ++ rest)) = n.fractionPart := by
  have hhead := n.head_powerPart h
  rw [fractionPart]
  split
  · exact fractionChars_eq_nil fun c hc => (hhead c hc).2
  · rename_i hne
    exact fractionChars_append hne n.fraction_isDigit fun c hc => (hhead c hc).1

theorem head_fractionPart (h : EndsNumber rest) :
    ∀ c ∈ (n.fractionPart ++ (n.powerPart ++ rest)).head?, isDigit c = false := by
  rw [fractionPart]
  split
  · exact fun c hc => (n.head_powerPart h c hc).1
  · rintro c ⟨⟩
    decide

/-- A number that is written is read back. -/
theorem number?_chars (h : EndsNumber rest) :
    number? (n.chars ++ rest) = some (n.lexeme, rest) := by
  have hwhole := wholeDigits_append n.isWhole (n.head_fractionPart h)
  have hfraction := n.fractionChars_fractionPart h
  have hpower := n.exponentChars_powerPart h
  have hne := n.isWhole.ne_nil
  obtain ⟨d, tail, htail⟩ := List.exists_cons_of_ne_nil hne
  have hsign : number? (n.chars ++ rest) = numberAfter n.sign (n.chars ++ rest) := by
    cases hneg : n.negative with
    | false =>
      have hd : d ≠ '-' := by
        rintro rfl
        exact absurd (n.isWhole.isDigit '-' (by rw [htail]; exact List.mem_cons_self)) (by decide)
      simp only [chars, magnitude, sign, hneg, htail]
      exact number?_unsigned hd _
    | true =>
      simp only [chars, sign, hneg]
      exact number?_minus _
  have hafter : (n.chars ++ rest).drop n.sign.length =
      n.whole ++ (n.fractionPart ++ (n.powerPart ++ rest)) := by
    simp [chars, magnitude]
  have hrest : (n.chars ++ rest).drop (n.sign.length + n.whole.length) =
      n.fractionPart ++ (n.powerPart ++ rest) := by
    rw [← List.drop_drop, hafter, List.drop_left]
  rw [hsign, numberAfter]
  simp only [hafter, hwhole, hrest, hfraction, List.drop_left, hpower]
  rw [if_neg (by simpa using hne), lexeme, isDouble]
  split
  · rename_i hempty
    simp only [Bool.and_eq_true, List.isEmpty_iff] at hempty
    simp [hempty, n.isEmpty_sign]
  · rename_i hempty
    rw [← List.drop_drop, List.drop_left, List.drop_left]
    simp [hempty, chars, magnitude]

end Numeral

/-! ### Numbers among the lexemes -/

/-- No word that stands for a value goes on with a digit where a number does. -/
theorem afterWord?_number {word : String} {sign : List Char} {d : Char}
    (hword : ∀ c ∈ word.toList, isDigit c = false) (hlength : sign.length < word.toList.length)
    (hd : isDigit d = true) (t : List Char) : afterWord? word (sign ++ d :: t) = none := by
  rw [afterWord?, if_neg]
  intro hpre
  rw [List.isPrefixOf_iff_prefix] at hpre
  have hfront : sign ++ [d] <+: sign ++ d :: t := ⟨t, by simp⟩
  have hin : sign ++ [d] <+: word.toList :=
    List.prefix_of_prefix_length_le hfront hpre (by rw [List.length_append]; exact hlength)
  have hmem : d ∈ word.toList := hin.subset (by simp)
  rw [hword d hmem] at hd
  cases hd

/-- No word is at the front of a number. -/
theorem findSome?_words_number {sign : List Char} (hsign : sign = [] ∨ sign = ['-']) {d : Char}
    (hd : isDigit d = true) (t : List Char) :
    words.findSome? (fun (word, j) => (afterWord? word (sign ++ d :: t)).map (j, ·)) = none := by
  rw [List.findSome?_eq_none_iff]
  have hwords : words.all (fun p => p.1.toList.all (!isDigit ·) && 1 < p.1.toList.length) =
      true := by
    decide
  have hall : ∀ p ∈ words, (∀ c ∈ p.1.toList, isDigit c = false) ∧ 1 < p.1.toList.length := by
    simpa only [List.all_eq_true, Bool.and_eq_true, decide_eq_true_eq, Bool.not_eq_true']
      using hwords
  intro p hp
  have hlength : sign.length < p.1.toList.length := by
    rcases hsign with rfl | rfl
    · exact Nat.lt_trans Nat.one_pos (hall p hp).2
    · exact (hall p hp).2
  show (afterWord? p.1 (sign ++ d :: t)).map _ = none
  rw [afterWord?_number (hall p hp).1 hlength hd, Option.map_none]

theorem lexeme?_eq_number? {sign : List Char} (hsign : sign = [] ∨ sign = ['-']) {d : Char}
    (hd : isDigit d = true) (t : List Char) :
    lexeme? (sign ++ d :: t) = number? (sign ++ d :: t) := by
  have hwords := findSome?_words_number hsign hd t
  have hhead : ∀ c ∈ (sign ++ d :: t).head?, isDigit c = true ∨ c = '-' := by
    rcases hsign with rfl | rfl
    · rintro c ⟨⟩
      exact .inl hd
    · rintro c ⟨⟩
      exact .inr rfl
  generalize sign ++ d :: t = l at hwords hhead
  unfold lexeme?
  split
  case h_8 => rw [hwords]
  all_goals
    rcases hhead _ rfl with h | h
    · exact absurd h (by decide)
    · exact absurd h (by decide)

/-- A number that is written is the lexeme at the front of a text. -/
theorem Numeral.lexeme?_chars (n : Numeral) {rest : List Char} (h : EndsNumber rest) :
    lexeme? (n.chars ++ rest) = some (n.lexeme, rest) := by
  obtain ⟨d, tail, htail⟩ := List.exists_cons_of_ne_nil n.isWhole.ne_nil
  have hd : isDigit d = true := n.isWhole.isDigit d (by rw [htail]; exact List.mem_cons_self)
  have hsign : n.sign = [] ∨ n.sign = ['-'] := by
    rw [sign]
    split
    · exact .inr rfl
    · exact .inl rfl
  rw [← n.number?_chars h]
  have hchars : n.chars ++ rest =
      n.sign ++ d :: (tail ++ (n.fractionPart ++ (n.powerPart ++ rest))) := by
    simp [chars, magnitude, htail]
  rw [hchars]
  exact lexeme?_eq_number? hsign hd _

/-! ### Whole numbers -/

theorem isWhole_toDigits (n : Nat) : IsWhole (Nat.toDigits 10 n) := by
  by_cases h : n = 0
  · subst h
    exact .inl rfl
  · obtain ⟨k, rest, hpos, hk, hdigits⟩ := exists_toDigits h
    exact .inr ⟨isDigit_of_mem_toDigits, k.digitChar, rest, hdigits, digitChar_ne_zero k hk hpos⟩

/-- The numeral of a whole number. -/
def wholeNumeral (n : Int) : Numeral where
  negative := decide (n < 0)
  whole := Nat.toDigits 10 n.natAbs
  isWhole := isWhole_toDigits n.natAbs

theorem toList_toString_int (n : Int) : (toString n).toList = (wholeNumeral n).chars := by
  cases n with
  | ofNat n =>
    show (Nat.repr n).toList = _
    simp [Nat.repr, wholeNumeral, Numeral.chars, Numeral.magnitude, Numeral.sign,
      Numeral.fractionPart, Numeral.powerPart]
  | negSucc n =>
    show ("-" ++ Nat.repr (n + 1)).toList = _
    simp [Nat.repr, wholeNumeral, Numeral.chars, Numeral.magnitude, Numeral.sign,
      Numeral.fractionPart, Numeral.powerPart]

theorem lexeme?_toString_int (n : Int) {rest : List Char} (h : EndsNumber rest) :
    lexeme? ((toString n).toList ++ rest) =
      some (.whole (decide (n < 0)) (Nat.toDigits 10 n.natAbs), rest) := by
  rw [toList_toString_int, Numeral.lexeme?_chars _ h]
  rfl

/-- The sign and the digits of a whole number give it back. -/
theorem int_of_digits (n : Int) :
    (if decide (n < 0) then -(natOfDigits (Nat.toDigits 10 n.natAbs) : Int)
      else natOfDigits (Nat.toDigits 10 n.natAbs)) = n := by
  rw [natOfDigits_toDigits]
  split
  · rename_i h
    have := of_decide_eq_true h
    omega
  · rename_i h
    have : ¬ n < 0 := fun hn => h (decide_eq_true hn)
    omega

/-! ### Doubles -/

section Doubles

variable {b : Binary} {d : Scaled}

/-- A double that is not zero does not read back from zero. -/
theorem readsBack_coefficient (hb : b.mantissa ≠ 0) (h : b.readsBack d = true) :
    d.coefficient ≠ 0 := by
  intro hzero
  have hlow (p : Prop) [Decidable p] :
      0 < if p then 4 * b.mantissa - 1 else 4 * b.mantissa - 2 := by
    split <;> omega
  have hunit (i j : Nat) : 0 < 1 * Nat.pow 10 i * (1 * Nat.pow 2 j) := by
    rw [Nat.one_mul, Nat.one_mul]
    exact Nat.mul_pos (Nat.pow_pos (by omega)) (Nat.pow_pos (by omega))
  simp only [Binary.readsBack, scale, hzero, Nat.zero_mul] at h
  by_cases heven : (b.mantissa % 2 == 0) = true
  · rw [if_pos heven, Bool.and_eq_true, decide_eq_true_eq] at h
    exact absurd h.1 (Nat.not_le_of_gt (Nat.mul_pos (hlow _) (hunit _ _)))
  · rw [if_neg heven, Bool.and_eq_true, decide_eq_true_eq] at h
    exact absurd h.1 (Nat.not_lt_zero _)

theorem div_le_roundDiv (num den : Nat) : num / den ≤ roundDiv num den := by
  rw [roundDiv]
  split <;> omega

theorem onGrid?_coefficient (hb : b.mantissa ≠ 0) {s : Int} (h : b.onGrid? s = some d) :
    d.coefficient ≠ 0 := by
  simp only [Binary.onGrid?] at h
  split at h
  · rename_i hbelow habove
    cases h
    have hquotient := Nat.pos_of_ne_zero (readsBack_coefficient hb hbelow)
    exact Nat.ne_of_gt (Nat.lt_of_lt_of_le hquotient (div_le_roundDiv _ _))
  · rename_i hbelow habove
    cases h
    exact readsBack_coefficient hb hbelow
  · rename_i hbelow habove
    cases h
    exact readsBack_coefficient hb habove
  · cases h

/-- The shortest decimal of a double is zero only if it is written as zero. -/
theorem shortest_cases (b : Binary) : b.shortest = ⟨0, 0⟩ ∨ b.shortest.coefficient ≠ 0 := by
  rw [Binary.shortest]
  split
  · exact .inl rfl
  · rename_i hb
    cases h : (List.range 17).findSome? fun (n : Nat) => b.onGrid? (b.lead - n) with
    | none => exact .inl rfl
    | some d =>
      obtain ⟨n, -, hn⟩ := List.exists_of_findSome?_eq_some h
      exact .inr (onGrid?_coefficient (by simpa using hb) hn)

/-- The digits of a decimal that is not zero begin with one that is no zero. -/
theorem exists_digits (hd : d.coefficient ≠ 0) :
    ∃ c rest, d.digits = c :: rest ∧ c ≠ '0' ∧ ∀ c ∈ d.digits, isDigit c = true := by
  obtain ⟨k, tail, hpos, hk, hall⟩ := exists_toDigits hd
  have hzero := digitChar_ne_zero k hk hpos
  -- What is left without the zeros at the end begins as the digits do.
  have hpre : List.rdropWhile (· == '0') (Nat.toDigits 10 d.coefficient) <+:
      Nat.toDigits 10 d.coefficient := List.rdropWhile_prefix _ _
  have hne : List.rdropWhile (· == '0') (Nat.toDigits 10 d.coefficient) ≠ [] := by
    intro hnil
    have hin := List.rdropWhile_eq_nil_iff.1 hnil k.digitChar (by rw [hall]; exact List.mem_cons_self)
    exact hzero (eq_of_beq hin)
  have hdigits : d.digits = List.rdropWhile (· == '0') (Nat.toDigits 10 d.coefficient) := by
    unfold Scaled.digits
    dsimp only
    split
    · rename_i hnil
      exact absurd hnil hne
    · rfl
  obtain ⟨c, rest, hc⟩ := List.exists_cons_of_ne_nil hne
  rw [hdigits]
  refine ⟨c, rest, hc, ?_, fun x hx => isDigit_of_mem_toDigits x (hpre.subset hx)⟩
  rw [hc, hall] at hpre
  rw [(List.cons_prefix_cons.1 hpre).1]
  exact hzero

/-- The exponent of a number in scientific form. -/
theorem exists_exponent (e : Int) : ∃ s l, Layout.exponent e = 'e' :: s :: l ∧
    (s = '+' ∨ s = '-') ∧ l ≠ [] ∧ ∀ c ∈ l, isDigit c = true := by
  refine ⟨_, _, rfl, ?_, ?_, ?_⟩
  · split
    · exact .inr rfl
    · exact .inl rfl
  · simp [Nat.toDigits_ne_nil]
  · refine List.forall_mem_append.2 ⟨?_, isDigit_of_mem_toDigits⟩
    intro c hc
    rw [List.eq_of_mem_replicate hc]
    rfl

/-- Digits in positional form, with a point always. -/
theorem exists_numeral_positional {c : Char} {rest : List Char} (hc : c ≠ '0')
    (hall : ∀ x ∈ c :: rest, isDigit x = true) (lead : Int) (negative : Bool) :
    ∃ n : Numeral, n.negative = negative ∧
      n.magnitude = numberLayout.positional (c :: rest) lead ∧ n.isDouble = true := by
  have hzeros (k : Nat) : ∀ x ∈ List.replicate k '0', isDigit x = true := by
    intro x hx
    rw [List.eq_of_mem_replicate hx]
    rfl
  rw [Layout.positional]
  split
  · -- A zero before the point, and zeros between it and the digits.
    refine ⟨⟨negative, ['0'], List.replicate (-lead - 1).toNat '0' ++ c :: rest, none, .inl rfl,
      List.forall_mem_append.2 ⟨hzeros _, hall⟩, by simp⟩, rfl, ?_, ?_⟩
    · simp [Numeral.magnitude, Numeral.fractionPart, Numeral.powerPart]
    · simp [Numeral.isDouble, Numeral.fractionPart]
  · obtain ⟨w, hw⟩ : ∃ w, (lead + 1).toNat = w + 1 := ⟨lead.toNat, by omega⟩
    simp only [hw]
    split
    · -- Zeros between the digits and the point.
      refine ⟨⟨negative, c :: rest ++ List.replicate (w + 1 - (c :: rest).length) '0', ['0'], none,
        .inr ⟨List.forall_mem_append.2 ⟨hall, hzeros _⟩, c, _, rfl, hc⟩,
        List.all_eq_true.1 rfl, by simp⟩, rfl, ?_, ?_⟩
      · simp [Numeral.magnitude, Numeral.fractionPart, Numeral.powerPart, numberLayout, plain]
      · simp [Numeral.isDouble, Numeral.fractionPart]
    · -- The point stands among the digits.
      rename_i hlength
      have hdrop : rest.drop w ≠ [] := by
        intro hnil
        rw [List.drop_eq_nil_iff] at hnil
        rw [List.length_cons] at hlength
        omega
      refine ⟨⟨negative, (c :: rest).take (w + 1), rest.drop w, none,
        .inr ⟨fun x hx => hall x (List.mem_of_mem_take hx), c, _, rfl, hc⟩,
        fun x hx => hall x (List.mem_cons_of_mem c (List.mem_of_mem_drop hx)), by simp⟩, rfl, ?_, ?_⟩
      · simp [Numeral.magnitude, Numeral.fractionPart, Numeral.powerPart, hdrop]
      · simp [Numeral.isDouble, Numeral.fractionPart, hdrop]

/-- Digits in scientific form. -/
theorem exists_numeral_scientific {c : Char} {rest : List Char} (hc : c ≠ '0')
    (hall : ∀ x ∈ c :: rest, isDigit x = true) (lead : Int) (negative : Bool) :
    ∃ n : Numeral, n.negative = negative ∧
      n.magnitude = Layout.scientific (c :: rest) lead ∧ n.isDouble = true := by
  rw [List.forall_mem_cons] at hall
  obtain ⟨s, power, hexponent, hsigned⟩ := exists_exponent lead
  refine ⟨⟨negative, [c], rest, some (s, power),
    .inr ⟨by simpa using hall.1, c, [], rfl, hc⟩, hall.2, by simpa using hsigned⟩, rfl, ?_, ?_⟩
  · cases rest with
    | nil =>
      simp [Layout.scientific, hexponent, Numeral.magnitude, Numeral.fractionPart,
        Numeral.powerPart]
    | cons x rest =>
      simp [Layout.scientific, hexponent, Numeral.magnitude, Numeral.fractionPart,
        Numeral.powerPart]
  · simp [Numeral.isDouble, Numeral.powerPart]

/-- A decimal that is not zero is written as a number with a point or an exponent. -/
theorem exists_numeral_render (hd : d.coefficient ≠ 0) (negative : Bool) :
    ∃ n : Numeral, n.negative = negative ∧ n.magnitude = numberLayout.render d ∧
      n.isDouble = true := by
  obtain ⟨c, rest, hdigits, hc, hall⟩ := exists_digits hd
  rw [Layout.render, hdigits]
  rw [hdigits] at hall
  split
  · exact exists_numeral_positional hc hall d.lead negative
  · exact exists_numeral_scientific hc hall d.lead negative

/-- Zero as a number with a point. -/
def zeroNumeral (negative : Bool) : Numeral where
  negative
  whole := ['0']
  fraction := ['0']
  isWhole := .inl rfl
  fraction_isDigit := List.all_eq_true.1 rfl

/-- A finite double is written as a number with a point or an exponent. -/
theorem exists_numeral_float {x : Float} (hb : Binary.ofFloat? x = some b) :
    ∃ n : Numeral, (renderFloat x).toList = n.chars ∧ n.isDouble = true := by
  have hnumeral : ∃ n : Numeral, n.negative = signBit x ∧
      n.magnitude = numberLayout.render b.shortest ∧ n.isDouble = true := by
    rcases shortest_cases b with hzero | hne
    · refine ⟨zeroNumeral (signBit x), rfl, ?_, rfl⟩
      rw [hzero]
      rfl
    · exact exists_numeral_render hne (signBit x)
  obtain ⟨n, hnegative, hmagnitude, hdouble⟩ := hnumeral
  refine ⟨n, ?_, hdouble⟩
  rw [renderFloat, Layout.text, hb, Numeral.chars, Numeral.sign, hnegative, hmagnitude]
  exact String.toList_ofList

/-- The three words for doubles that are not finite. -/
theorem renderFloat_of_not_finite {x : Float} (hb : Binary.ofFloat? x = none) :
    renderFloat x = "NaN" ∨ renderFloat x = "Infinity" ∨ renderFloat x = "-Infinity" := by
  rw [renderFloat, Layout.text, hb]
  simp only
  split
  · exact .inl rfl
  · split
    · exact .inr (.inr rfl)
    · exact .inr (.inl rfl)

theorem renderFloat_ne_nil (x : Float) : (renderFloat x).toList ≠ [] := by
  cases hb : Binary.ofFloat? x with
  | some b =>
    obtain ⟨n, hn, -⟩ := exists_numeral_float hb
    rw [hn]
    exact n.chars_ne_nil
  | none => rcases renderFloat_of_not_finite hb with h | h | h <;> rw [h] <;> decide

theorem isPlain_of_mem_renderFloat (x : Float) : ∀ c ∈ (renderFloat x).toList, isPlain c = true := by
  cases hb : Binary.ofFloat? x with
  | some b =>
    obtain ⟨n, hn, -⟩ := exists_numeral_float hb
    rw [hn]
    exact n.isPlain_of_mem_chars
  | none =>
    rcases renderFloat_of_not_finite hb with h | h | h <;>
      exact h ▸ List.all_eq_true.1 rfl

/-- The double that a double is read as when it is written. -/
def rereadFloat (x : Float) : Float := (signedFloat? (renderFloat x).toList).getD 0

/-- A double that is written is the lexeme at the front of a text. -/
theorem lexeme?_renderFloat (x : Float) {rest : List Char} (hrest : EndsNumber rest) :
    lexeme? ((renderFloat x).toList ++ rest) = some (.scalar (.float (rereadFloat x)), rest) := by
  unfold rereadFloat
  cases hb : Binary.ofFloat? x with
  | some b =>
    obtain ⟨n, hn, hdouble⟩ := exists_numeral_float hb
    rw [hn, n.lexeme?_chars hrest, Numeral.lexeme, if_pos hdouble]
  | none =>
    rcases renderFloat_of_not_finite hb with hword | hword | hword
    all_goals
      rw [hword]
      rfl

end Doubles

end FormulaBook.Json
