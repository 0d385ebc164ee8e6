import FormulaBook.Json.Reader
import FormulaBook.Proofs.Outcome
import Mathlib.Data.List.TakeWhile

/-!
# Texts that are too much for the reader

A text is refused as malformed if it is no JSON. There are two other reasons to refuse it: a whole
number has too many digits, or containers are nested too deep. Both can be seen in the text without
reading it, as a run of digits that is longer than the limit, or as more opening brackets and braces
than there may be open containers.

* `openings`, `Moderate`: the texts that show neither;
* `number?_eq_some`, `lexeme?_cases`, `lexeme?_eq_some`: what a number and a lexeme take from the
  front of a text;
* `Reading.step_cases`: what a lexeme can do, with `Reading.step_eq_ok` and `Reading.step_eq_error`;
* `excess_of_parseFrom`, `error_of_moderate`: why a text is refused that is not malformed, and that
  no moderate text is.
-/

namespace FormulaBook.Json

open Text

/-- How many brackets and braces of a text are opening ones. -/
def openings (l : List Char) : Nat := l.countP fun c => c == '[' || c == '\x7b'

/-- The texts without a long run of digits and without many opening brackets and braces. -/
structure Moderate (l : List Char) : Prop where
  digits : ∀ run, run <:+: l → (∀ c ∈ run, isDigit c = true) → run.length ≤ Decimal.digitLimit
  nesting : openings l ≤ nestingLimit

theorem openings_cons (c : Char) (l : List Char) :
    openings (c :: l) = openings l + if c == '[' || c == '\x7b' then 1 else 0 :=
  List.countP_cons

theorem openings_le_of_suffix {rest l : List Char} (h : rest <:+ l) : openings rest ≤ openings l :=
  h.sublist.countP_le

/-- A short text is moderate. -/
theorem moderate_of_length_le {l : List Char} (h : l.length ≤ nestingLimit) : Moderate l where
  digits run hrun _ := by
    have hlimits : nestingLimit ≤ Decimal.digitLimit := by decide
    exact Nat.le_trans hrun.length_le (Nat.le_trans h hlimits)
  nesting := Nat.le_trans List.countP_le_length h

/-! ### Lexemes -/

theorem textBody_suffix {first : Option Nat} {out codes : List Nat} {l rest : List Char}
    (h : textBody first out l = some (codes, rest)) : rest <:+ l := by
  fun_induction textBody first out l with
  | case1 | case3 | case10 | case11 => cases h
  | case2 =>
    -- The closing quotation mark.
    cases h
    exact List.suffix_cons _ _
  | case4 _ _ _ _ _ _ _ _ _ _ ih | case5 _ _ _ _ _ _ _ _ _ _ _ ih
  | case6 _ _ _ _ _ _ _ _ _ _ _ ih | case7 _ _ _ _ _ _ _ _ _ ih
  | case8 _ _ _ _ _ _ _ _ _ ih =>
    -- The four digits of a unit.
    exact (ih h).trans ⟨['\\', 'u', _, _, _, _], rfl⟩
  | case9 _ _ _ _ _ _ _ ih => exact (ih h).trans ⟨['\\', _], rfl⟩
  | case12 _ _ _ _ _ _ _ _ ih => exact (ih h).trans (List.suffix_cons _ _)

/-- The characters that a number consists of. -/
def isNumeralChar (c : Char) : Bool :=
  isDigit c || c == '-' || c == '+' || c == '.' || c == 'e' || c == 'E'

theorem isNumeralChar_of_isDigit {c : Char} (h : isDigit c = true) : isNumeralChar c = true := by
  simp [isNumeralChar, h]

theorem isPrefix_wholeDigits (l : List Char) : wholeDigits l <+: l := by
  unfold wholeDigits
  split
  · exact List.prefix_append ['0'] _
  · exact List.takeWhile_prefix isDigit

theorem isDigit_of_mem_wholeDigits {l : List Char} : ∀ c ∈ wholeDigits l, isDigit c = true := by
  unfold wholeDigits
  split
  · exact List.forall_mem_singleton.2 rfl
  · exact fun c hc => List.mem_takeWhile_imp hc

theorem fractionChars_spec (l : List Char) :
    fractionChars l <+: l ∧ ∀ c ∈ fractionChars l, isNumeralChar c = true := by
  unfold fractionChars
  split
  · dsimp only
    split
    · exact ⟨List.nil_prefix, by simp⟩
    · refine ⟨(List.cons_prefix_cons.2 ⟨rfl, List.takeWhile_prefix isDigit⟩), ?_⟩
      exact List.forall_mem_cons.2 ⟨rfl, fun c hc =>
        isNumeralChar_of_isDigit (List.mem_takeWhile_imp hc)⟩
  · exact ⟨List.nil_prefix, by simp⟩

theorem exponentChars_spec (l : List Char) :
    exponentChars l <+: l ∧ ∀ c ∈ exponentChars l, isNumeralChar c = true := by
  unfold exponentChars
  split
  · rename_i e rest
    split
    · rename_i he
      extract_lets sign digits
      have hsign : sign <+: rest ∧ ∀ c ∈ sign, isNumeralChar c = true := by
        unfold sign
        split
        · exact ⟨List.prefix_append ['+'] _, List.forall_mem_singleton.2 rfl⟩
        · exact ⟨List.prefix_append ['-'] _, List.forall_mem_singleton.2 rfl⟩
        · exact ⟨List.nil_prefix, by simp⟩
      split
      · exact ⟨List.nil_prefix, by simp⟩
      · have hdigits : digits <+: rest.drop sign.length := List.takeWhile_prefix isDigit
        have hletter : isNumeralChar e = true := by
          rw [Bool.or_eq_true, beq_iff_eq, beq_iff_eq] at he
          obtain rfl | rfl := he <;> rfl
        refine ⟨List.cons_prefix_cons.2 ⟨rfl, ?_⟩, ?_⟩
        · rw [← List.prefix_iff_eq_append.1 hsign.1]
          exact (List.prefix_append_right_inj sign).2 hdigits
        · exact List.forall_mem_cons.2 ⟨hletter, List.forall_mem_append.2
            ⟨hsign.2, fun c hc => isNumeralChar_of_isDigit (List.mem_takeWhile_imp hc)⟩⟩
    · exact ⟨List.nil_prefix, by simp⟩
  · exact ⟨List.nil_prefix, by simp⟩

/-- A number behind a sign is a row of its characters at the front of a text. It is a double, or a
whole number whose digits stand there. -/
theorem numberAfter_eq_some {sign l rest : List Char} {x : Lexeme} (hpre : sign <+: l)
    (hchars : ∀ c ∈ sign, isNumeralChar c = true) (h : numberAfter sign l = some (x, rest)) :
    (∃ front, l = front ++ rest ∧ ∀ c ∈ front, isNumeralChar c = true) ∧
      ((∃ j, x = .scalar j) ∨ ∃ negative digits, x = .whole negative digits ∧
        digits <:+: l ∧ ∀ c ∈ digits, isDigit c = true) := by
  unfold numberAfter at h
  extract_lets whole tail fraction power at h
  have hwhole : whole <+: l.drop sign.length := isPrefix_wholeDigits _
  -- The sign and the digits, and what follows them.
  have hfront : l = (sign ++ whole) ++ tail := by
    rw [List.append_assoc, ← List.prefix_iff_eq_append.1 hpre]
    congr 1
    rw [← List.prefix_iff_eq_append.1 hwhole, List.drop_drop]
  have hnumeral : ∀ c ∈ sign ++ whole, isNumeralChar c = true :=
    List.forall_mem_append.2 ⟨hchars, fun c hc =>
      isNumeralChar_of_isDigit (isDigit_of_mem_wholeDigits c hc)⟩
  split at h
  · cases h
  split at h
  · obtain ⟨rfl, rfl⟩ := Prod.mk.inj (Option.some.inj h)
    exact ⟨⟨sign ++ whole, hfront, hnumeral⟩, .inr ⟨_, whole, rfl,
      hwhole.isInfix.trans (List.drop_suffix _ _).isInfix, isDigit_of_mem_wholeDigits⟩⟩
  · obtain ⟨rfl, rfl⟩ := Prod.mk.inj (Option.some.inj h)
    obtain ⟨hfraction, hfractionChars⟩ := fractionChars_spec tail
    obtain ⟨hpower, hpowerChars⟩ := exponentChars_spec (tail.drop fraction.length)
    have hrest : tail = fraction ++ (power ++ tail.drop (fraction.length + power.length)) := by
      have hafter : tail.drop fraction.length =
          power ++ tail.drop (fraction.length + power.length) := by
        rw [← List.drop_drop]
        exact (List.prefix_iff_eq_append.1 hpower).symm
      rw [← hafter]
      exact (List.prefix_iff_eq_append.1 hfraction).symm
    refine ⟨⟨sign ++ whole ++ (fraction ++ power), ?_, ?_⟩, .inl ⟨_, rfl⟩⟩
    · rw [List.append_assoc, List.append_assoc fraction, ← hrest]
      exact hfront
    · exact List.forall_mem_append.2
        ⟨hnumeral, List.forall_mem_append.2 ⟨hfractionChars, hpowerChars⟩⟩

/-- What a number takes from the front of a text, be there a sign or not. -/
theorem number?_eq_some {l rest : List Char} {x : Lexeme} (h : number? l = some (x, rest)) :
    (∃ front, l = front ++ rest ∧ ∀ c ∈ front, isNumeralChar c = true) ∧
      ((∃ j, x = .scalar j) ∨ ∃ negative digits, x = .whole negative digits ∧
        digits <:+: l ∧ ∀ c ∈ digits, isDigit c = true) := by
  unfold number? at h
  split at h
  · exact numberAfter_eq_some (List.prefix_append ['-'] _) (List.forall_mem_singleton.2 rfl) h
  · exact numberAfter_eq_some List.nil_prefix (List.forall_mem_nil _) h

theorem afterWord?_eq_some {word : String} {l rest : List Char}
    (h : afterWord? word l = some rest) : l = word.toList ++ rest := by
  unfold afterWord? at h
  split at h <;> cases h
  rename_i hword
  rw [List.isPrefixOf_iff_prefix] at hword
  exact (List.prefix_iff_eq_append.1 hword).symm

/-- Whether a lexeme opens a container. -/
def Lexeme.opens : Lexeme → Bool
  | .openList | .openObject => true
  | _ => false

/-- What a lexeme takes from the front of a text: one character, which is an opening bracket or brace
if it opens a container, a text between double quotes, or the characters of a word or a number. -/
theorem lexeme?_cases {l rest : List Char} {x : Lexeme} (h : lexeme? l = some (x, rest)) :
    (∃ c, l = c :: rest ∧ (x.opens = true → c = '[' ∨ c = '\x7b') ∧
      ∀ negative digits, x ≠ .whole negative digits) ∨
    (∃ body codes, l = '"' :: body ∧ textBody none [] body = some (codes, rest) ∧
      x = .scalar (.text (ofCodes codes))) ∨
    ∃ front, l = front ++ rest ∧ '\x7b' ∉ front ∧ ((∃ j, x = .scalar j) ∨
      ∃ negative digits, x = .whole negative digits ∧
        digits <:+: l ∧ ∀ c ∈ digits, isDigit c = true) := by
  unfold lexeme? at h
  split at h
  case h_1 | h_2 | h_3 | h_4 | h_5 | h_6 =>
    cases h
    exact .inl ⟨_, rfl, by simp [Lexeme.opens], by simp⟩
  case h_7 =>
    obtain ⟨⟨codes, tail⟩, hbody, heq⟩ := Option.map_eq_some_iff.1 h
    cases heq
    exact .inr (.inl ⟨_, codes, rfl, hbody, rfl⟩)
  case h_8 =>
    refine .inr (.inr ?_)
    split at h
    · rename_i hword
      cases h
      obtain ⟨⟨word, value⟩, hmem, hafter⟩ := List.exists_of_findSome?_eq_some hword
      obtain ⟨after, htail, heq⟩ := Option.map_eq_some_iff.1 hafter
      cases heq
      have hbrace : ∀ w ∈ words.map Prod.fst, '\x7b' ∉ w.toList := by decide
      exact ⟨word.toList, afterWord?_eq_some htail, hbrace word (List.mem_map_of_mem hmem),
        .inl ⟨_, rfl⟩⟩
    · obtain ⟨⟨front, hfront, hnumeral⟩, hkind⟩ := number?_eq_some h
      exact ⟨front, hfront, fun hmem => absurd (hnumeral _ hmem) (by decide), hkind⟩

/-- A lexeme is taken from the front of a text. One that opens a container is an opening bracket or
brace, and the digits of a whole number stand in the text. -/
theorem lexeme?_eq_some {l rest : List Char} {x : Lexeme} (h : lexeme? l = some (x, rest)) :
    rest <:+ l ∧ (x.opens = true → openings rest < openings l) ∧
      ∀ negative digits, x = .whole negative digits →
        digits <:+: l ∧ ∀ c ∈ digits, isDigit c = true := by
  obtain ⟨c, rfl, hopens, hwhole⟩ | ⟨body, codes, rfl, hbody, rfl⟩ | ⟨front, hfront, -, hkind⟩ :=
    lexeme?_cases h
  · refine ⟨List.suffix_cons _ _, fun hx => ?_, fun negative digits hx => absurd hx (hwhole _ _)⟩
    rw [openings_cons]
    obtain rfl | rfl := hopens hx <;> exact Nat.lt_succ_self _
  · exact ⟨(textBody_suffix hbody).trans (List.suffix_cons _ _), by simp [Lexeme.opens], by simp⟩
  · have hsuffix : rest <:+ l := ⟨front, hfront.symm⟩
    obtain ⟨j, rfl⟩ | ⟨negative, digits, rfl, hdigits⟩ := hkind
    · exact ⟨hsuffix, by simp [Lexeme.opens], by simp⟩
    · exact ⟨hsuffix, by simp [Lexeme.opens], by simpa using hdigits⟩

/-! ### Open containers -/

namespace Reading

variable {r r' : Reading} {frames : List Frame} {x : Lexeme} {j : Json} {e : ReadError}

theorem complete_eq_ok (h : complete j frames = .ok r) : r.frames.length = frames.length := by
  unfold complete at h
  split at h <;> cases h <;> rfl

theorem complete_eq_error (h : complete j frames = .error e) : e = .malformed := by
  unfold complete at h
  split at h <;> cases h
  rfl

theorem enter_eq_ok {expected : Expectation} {frame : Frame} (h : r.enter expected frame = .ok r') :
    r'.frames.length = r.frames.length + 1 := by
  unfold enter at h
  split at h <;> cases h
  rfl

theorem enter_eq_error {expected : Expectation} {frame : Frame}
    (h : r.enter expected frame = .error e) : e = .tooDeep ∧ nestingLimit ≤ r.frames.length := by
  unfold enter at h
  split at h <;> cases h
  exact ⟨rfl, ‹_›⟩

theorem completeWhole_eq_ok {negative : Bool} {digits : List Char}
    (h : completeWhole negative digits frames = .ok r) : r.frames.length = frames.length := by
  unfold completeWhole at h
  split at h
  · cases h
  · exact complete_eq_ok h

theorem completeWhole_eq_error {negative : Bool} {digits : List Char}
    (h : completeWhole negative digits frames = .error e) : e = .malformed ∨
      e = .tooManyDigits digits.length ∧ Decimal.digitLimit < digits.length := by
  unfold completeWhole at h
  split at h
  · cases h
    exact .inr ⟨rfl, ‹_›⟩
  · exact .inl (complete_eq_error h)

/-- What a lexeme can do: a value is complete, be it a whole number or another one, a container is
opened, the reader goes on in the same container, or the lexeme may not stand there. -/
theorem step_cases (r : Reading) (x : Lexeme) :
    (∃ j frames, r.step x = complete j frames ∧ frames.length ≤ r.frames.length) ∨
    (∃ negative digits, x = .whole negative digits ∧
      r.step x = completeWhole negative digits r.frames) ∨
    (∃ expected frame, x.opens = true ∧ r.step x = r.enter expected frame) ∨
    (∃ r', r.step x = .ok r' ∧ r'.frames.length = r.frames.length) ∨
    r.step x = .error .malformed := by
  unfold step
  split
  case h_1 | h_2 => exact .inl ⟨_, _, rfl, Nat.le_refl _⟩
  case h_3 | h_4 => exact .inr (.inl ⟨_, _, rfl, rfl⟩)
  case h_5 | h_6 | h_7 | h_8 => exact .inr (.inr (.inl ⟨_, _, rfl, rfl⟩))
  case h_9 hframes | h_10 hframes | h_11 hframes | h_12 hframes =>
    -- The container that is closed is no longer open.
    refine .inl ⟨_, _, rfl, ?_⟩
    rw [hframes]
    exact Nat.le_succ _
  case h_13 hframes | h_14 hframes =>
    refine .inr (.inr (.inr (.inl ⟨_, rfl, ?_⟩)))
    rw [hframes]
    rfl
  case h_16 hframes | h_17 hframes =>
    exact .inr (.inr (.inr (.inl ⟨_, rfl, congrArg List.length hframes.symm⟩)))
  case h_15 => exact .inr (.inr (.inr (.inl ⟨_, rfl, rfl⟩)))
  case h_18 => exact .inr (.inr (.inr (.inr rfl)))

/-- A lexeme that opens a container adds one to those that are open, and no other lexeme does. -/
theorem step_eq_ok (h : r.step x = .ok r') :
    r'.frames.length ≤ r.frames.length + if x.opens then 1 else 0 := by
  obtain ⟨j, frames, hstep, hle⟩ | ⟨negative, digits, -, hstep⟩ | ⟨expected, frame, hopens, hstep⟩ |
    ⟨next, hstep, hlength⟩ | hstep := step_cases r x
  all_goals rw [hstep] at h
  · have := complete_eq_ok h
    omega
  · have := completeWhole_eq_ok h
    omega
  · rw [if_pos hopens]
    exact (enter_eq_ok h).le
  · cases h
    omega
  · cases h

/-- Why a lexeme is refused. -/
theorem step_eq_error (h : r.step x = .error e) : e = .malformed ∨
    e = .tooDeep ∧ x.opens = true ∧ nestingLimit ≤ r.frames.length ∨
    ∃ negative digits, x = .whole negative digits ∧ e = .tooManyDigits digits.length ∧
      Decimal.digitLimit < digits.length := by
  obtain ⟨j, frames, hstep, -⟩ | ⟨negative, digits, hx, hstep⟩ | ⟨expected, frame, hopens, hstep⟩ |
    ⟨next, hstep, -⟩ | hstep := step_cases r x
  all_goals rw [hstep] at h
  · exact .inl (complete_eq_error h)
  · exact (completeWhole_eq_error h).imp id fun hlong => .inr ⟨negative, digits, hx, hlong⟩
  · obtain ⟨he, hlimit⟩ := enter_eq_error h
    exact .inr (.inl ⟨he, hopens, hlimit⟩)
  · cases h
  · cases h
    exact .inl rfl

end Reading

/-! ### Texts that are refused -/

/-- A text is refused as malformed, at its first lexeme, or behind it. -/
theorem parseFrom_eq_error {fuel : Nat} {r : Reading} {l : List Char} {e : ReadError}
    (h : parseFrom (fuel + 1) r l = .error e) : e = .malformed ∨
      ∃ x rest, lexeme? (l.dropWhile isBlank) = some (x, rest) ∧ (r.step x = .error e ∨
        ∃ r', r.step x = .ok r' ∧ parseFrom fuel r' rest = .error e) := by
  rw [parseFrom] at h
  split at h
  · split at h <;> cases h
    exact .inl rfl
  split at h
  · cases h
    exact .inl rfl
  · rename_i x rest hlexeme
    refine .inr ⟨x, rest, hlexeme, ?_⟩
    split at h
    · rename_i hstep
      cases h
      exact .inl hstep
    · rename_i r' hstep
      exact .inr ⟨r', hstep, h⟩

/-- A text that is refused and not malformed has a run of digits that is longer than the limit, or
brackets and braces that open more containers than may be open. -/
theorem excess_of_parseFrom {fuel : Nat} {r : Reading} {l : List Char} {e : ReadError}
    (h : parseFrom fuel r l = .error e) : e = .malformed ∨
      e = .tooDeep ∧ nestingLimit < r.frames.length + openings l ∨
      ∃ run, run <:+: l ∧ (∀ c ∈ run, isDigit c = true) ∧ e = .tooManyDigits run.length ∧
        Decimal.digitLimit < run.length := by
  induction fuel generalizing r l with
  | zero =>
    cases h
    exact .inl rfl
  | succ fuel ih =>
    obtain hmalformed | ⟨x, rest, hlexeme, hnext⟩ := parseFrom_eq_error h
    · exact .inl hmalformed
    obtain ⟨hrest, hopens, hdigits⟩ := lexeme?_eq_some hlexeme
    have hblanks := List.dropWhile_suffix isBlank (l := l)
    have hcount := openings_le_of_suffix hblanks
    obtain hrefused | ⟨r', hstep, hrun⟩ := hnext
    · -- The lexeme itself is refused.
      obtain rfl | ⟨rfl, hx, hlimit⟩ | ⟨negative, digits, rfl, rfl, hlong⟩ :=
        Reading.step_eq_error hrefused
      · exact .inl rfl
      · have := hopens hx
        exact .inr (.inl ⟨rfl, by omega⟩)
      · obtain ⟨hwithin, hall⟩ := hdigits negative digits rfl
        exact .inr (.inr ⟨digits, hwithin.trans hblanks.isInfix, hall, rfl, hlong⟩)
    · obtain rfl | ⟨rfl, hexcess⟩ | ⟨run, hwithin, hall, rfl, hlong⟩ := ih hrun
      · exact .inl rfl
      · -- What is open behind the lexeme is open before it, or opened by it.
        have hframes := Reading.step_eq_ok hstep
        have hcount' := openings_le_of_suffix hrest
        cases hx : x.opens with
        | true =>
          have := hopens hx
          rw [hx, if_pos rfl] at hframes
          exact .inr (.inl ⟨rfl, by omega⟩)
        | false =>
          rw [hx, if_neg (by simp)] at hframes
          exact .inr (.inl ⟨rfl, by omega⟩)
      · exact .inr (.inr ⟨run, hwithin.trans (hrest.trans hblanks).isInfix, hall, rfl, hlong⟩)

/-- A moderate text that is refused is malformed. -/
theorem error_of_moderate {l : List Char} {e : ReadError} (h : Moderate l)
    (he : parse l = .error e) : e = .malformed := by
  obtain hmalformed | ⟨-, hexcess⟩ | ⟨run, hwithin, hall, -, hlong⟩ := excess_of_parseFrom he
  · exact hmalformed
  · have := h.nesting
    have hnone : ({} : Reading).frames.length = 0 := rfl
    omega
  · have := h.digits run hwithin hall
    omega

end FormulaBook.Json
