import FormulaBook.Proofs.Json.Limits

/-!
# Objects behind other characters

A text that ends with a whole object is no JSON if anything but blanks stands before the object. The
object is then a part of a container that is still open, or its first double quote closes a text
that was open before it, and then its first name stands where no lexeme can be.

* `textBody_append_brace`, `lexeme?_append_brace`: a lexeme in front of the object ends before it, or
  is a text that ends with its first double quote;
* `Reading.HasBegun`: the states behind a lexeme;
* `Reading.Within`, `Reading.within_step`: reading inside containers that stay open, step by step;
* `parse_append_object`: what is read of the whole text.
-/

namespace FormulaBook.Json

open Text

/-! ### Lexemes in front of an object -/

section Lexemes

variable {l rest tail : List Char}

/-- Characters that are taken from the front, none of which is `c`, leave `c` and what follows. -/
theorem exists_append_of_append_eq {α : Type} {c : α} {rest l tail : List α} (front : List α)
    (h : front ++ rest = l ++ c :: tail) (hc : c ∉ front) : ∃ l', rest = l' ++ c :: tail := by
  obtain ⟨l', -, hrest⟩ | ⟨l', hfront, htail⟩ := List.append_eq_append_iff.1 h
  · exact ⟨l', hrest⟩
  · cases l' with
    | nil => exact ⟨[], htail.symm⟩
    | cons d l' =>
      obtain rfl : c = d := (List.cons.inj htail).1
      exact absurd (hfront ▸ List.mem_append_right l List.mem_cons_self) hc

theorem not_brace_of_unit? {a b c d : Char} {u : Nat} (h : unit? a b c d = some u) :
    '\x7b' ∉ ['\\', 'u', a, b, c, d] := by
  have hdigit : hexValue? '\x7b' = none := by decide
  simp only [unit?, Option.bind_eq_bind, Option.bind_eq_some_iff] at h
  obtain ⟨_, ha, _, hb, _, hc, _, hd, -⟩ := h
  intro hmem
  simp only [List.mem_cons, List.not_mem_nil, or_false] at hmem
  obtain h | h | rfl | rfl | rfl | rfl := hmem
  · exact absurd h (by decide)
  · exact absurd h (by decide)
  · cases hdigit.symm.trans ha
  · cases hdigit.symm.trans hb
  · cases hdigit.symm.trans hc
  · cases hdigit.symm.trans hd

/-- A text that is open in front of an object ends before it, or with its first double quote. -/
theorem textBody_append_brace {first : Option Nat} {out codes : List Nat}
    (h : textBody first out (l ++ '\x7b' :: '"' :: tail) = some (codes, rest)) :
    (∃ l', rest = l' ++ '\x7b' :: '"' :: tail) ∨ rest = tail := by
  generalize hm : l ++ '\x7b' :: '"' :: tail = m at h
  fun_induction textBody first out m generalizing l with
  | case1 | case3 | case10 | case11 => cases h
  | case2 =>
    cases h
    exact .inl (exists_append_of_append_eq ['"'] hm.symm (by decide))
  | case4 _ _ _ _ _ _ _ _ _ _ ih | case5 _ _ _ _ _ _ _ _ _ _ _ ih
  | case6 _ _ _ _ _ _ _ _ _ _ _ ih | case7 _ _ _ _ _ _ _ _ _ ih
  | case8 _ _ _ _ _ _ _ _ _ ih =>
    -- No digit of a unit is a brace.
    obtain ⟨l', hl'⟩ := exists_append_of_append_eq ['\\', 'u', _, _, _, _] hm.symm
      (not_brace_of_unit? ‹_›)
    exact ih hl'.symm h
  | case9 _ _ e _ _ _ hescaped ih =>
    have hbrace : '\x7b' ∉ ['\\', e] := by
      intro hmem
      simp only [List.mem_cons, List.not_mem_nil, or_false] at hmem
      obtain h | rfl := hmem
      · exact absurd h (by decide)
      · cases hescaped
    obtain ⟨l', hl'⟩ := exists_append_of_append_eq ['\\', e] hm.symm hbrace
    exact ih hl'.symm h
  | case12 _ _ _ _ _ _ _ _ ih =>
    cases l with
    | nil =>
      -- The brace belongs to the text, and the double quote behind it ends the text.
      cases hm
      rw [textBody] at h
      cases h
      exact .inr rfl
    | cons d l =>
      cases hm
      exact ih rfl h

/-- A lexeme in front of an object leaves the object, or it is a text that ends with the first double
quote of the object. -/
theorem lexeme?_append_brace {x : Lexeme} (hl : l ≠ [])
    (h : lexeme? (l ++ '\x7b' :: '"' :: tail) = some (x, rest)) :
    (∃ l', rest = l' ++ '\x7b' :: '"' :: tail) ∨ rest = tail := by
  obtain ⟨d, l, rfl⟩ := List.exists_cons_of_ne_nil hl
  obtain ⟨c, heq, -⟩ | ⟨body, codes, heq, hbody, -⟩ | ⟨front, heq, hbrace, -⟩ := lexeme?_cases h
  · cases heq
    exact .inl ⟨l, rfl⟩
  · cases heq
    exact textBody_append_brace hbody
  · exact .inl (exists_append_of_append_eq front heq.symm hbrace)

end Lexemes

/-! ### Inside containers -/

namespace Reading

variable {r r' s s' : Reading} {below frames : List Frame} {x : Lexeme} {j : Json}

/-- A lexeme has been read: a container is open, or the value is whole. -/
def HasBegun (r : Reading) : Prop := (∃ j, r.expected = .nothing j) ∨ r.frames ≠ []

theorem hasBegun_complete (h : complete j frames = .ok r) : r.HasBegun := by
  unfold complete at h
  split at h <;> cases h
  · exact .inl ⟨j, rfl⟩
  · exact .inr (List.cons_ne_nil _ _)
  · exact .inr (List.cons_ne_nil _ _)

theorem hasBegun_completeWhole {negative : Bool} {digits : List Char}
    (h : completeWhole negative digits frames = .ok r) : r.HasBegun := by
  unfold completeWhole at h
  split at h
  · cases h
  · exact hasBegun_complete h

theorem hasBegun_step (hr : r = {} ∨ r.HasBegun) (h : r.step x = .ok r') : r'.HasBegun := by
  unfold step at h
  split at h
  case h_1 | h_2 | h_9 | h_10 | h_11 | h_12 => exact hasBegun_complete h
  case h_3 | h_4 => exact hasBegun_completeWhole h
  case h_5 | h_6 | h_7 | h_8 =>
    refine .inr (List.ne_nil_of_length_pos ?_)
    rw [enter_eq_ok h]
    exact Nat.succ_pos _
  case h_13 | h_14 | h_16 | h_17 =>
    cases h
    exact .inr (List.cons_ne_nil _ _)
  case h_15 hexpected =>
    -- A colon is expected inside an object only.
    cases h
    obtain rfl | ⟨j, hj⟩ | hopen := hr
    · cases hexpected
    · cases hj.symm.trans hexpected
    · exact .inr hopen
  case h_18 => cases h

/-- One reader reads a value by itself, another one reads it inside the containers `below`, and is
behind the value when the first one has read it. -/
inductive Within (below : List Frame) : Reading → Reading → Prop
  | inside {expected : Expectation} {frames : List Frame} :
    (∀ j, expected ≠ .nothing j) → Within below ⟨expected, frames⟩ ⟨expected, frames ++ below⟩
  | behind {j : Json} {s : Reading} : complete j below = .ok s → Within below ⟨.nothing j, []⟩ s

theorem within_complete (h : complete j frames = .ok r) (h' : complete j (frames ++ below) = .ok s) :
    Within below r s := by
  cases frames with
  | nil =>
    cases h
    exact .behind h'
  | cons frame frames =>
    cases frame <;> cases h <;> cases h'
    all_goals exact .inside (by simp)

theorem within_completeWhole {negative : Bool} {digits : List Char}
    (h : completeWhole negative digits frames = .ok r)
    (h' : completeWhole negative digits (frames ++ below) = .ok s) : Within below r s := by
  unfold completeWhole at h h'
  split at h
  · cases h
  · rename_i hlimit
    rw [if_neg hlimit] at h'
    exact within_complete h h'

theorem within_enter {before expected : Expectation} {frame : Frame}
    (hexpected : ∀ j, expected ≠ .nothing j)
    (h : enter ⟨before, frames⟩ expected frame = .ok r)
    (h' : enter ⟨before, frames ++ below⟩ expected frame = .ok s) : Within below r s := by
  unfold enter at h h'
  split at h <;> cases h
  split at h' <;> cases h'
  exact .inside hexpected

/-- A lexeme that both can read leads both on. -/
theorem within_step (hw : Within below r s) (h : r.step x = .ok r') (h' : s.step x = .ok s') :
    Within below r' s' := by
  cases hw with
  | behind =>
    -- Nothing follows the value.
    unfold step at h
    split at h
    case h_18 => cases h
    all_goals cases ‹Expectation.nothing _ = _›
  | inside hexpected =>
    unfold step at h
    split at h
    case h_1 heq | h_2 heq =>
      cases heq
      exact within_complete h h'
    case h_3 heq | h_4 heq =>
      cases heq
      exact within_completeWhole h h'
    case h_5 heq | h_6 heq | h_7 heq | h_8 heq =>
      cases heq
      exact within_enter (by simp) h h'
    case h_9 heq hframes | h_10 heq hframes | h_11 heq hframes | h_12 heq hframes =>
      cases heq
      cases hframes
      exact within_complete h h'
    case h_13 heq hframes | h_14 heq hframes | h_16 heq hframes | h_17 heq hframes =>
      cases heq
      cases hframes
      cases h
      cases h'
      exact .inside (by simp)
    case h_15 heq =>
      cases heq
      cases h
      cases h'
      exact .inside (by simp)
    case h_18 => cases h

end Reading

/-! ### Texts -/

section Texts

variable {fuel : Nat} {r s : Reading} {l : List Char} {j k : Json}

/-- A text is read if it ends where the value is whole, or if its first lexeme can stand where it
does and the text behind it is read. -/
theorem parseFrom_eq_ok : parseFrom (fuel + 1) r l = .ok j ↔
    l.dropWhile isBlank = [] ∧ r.expected = .nothing j ∨
    ∃ x rest r', lexeme? (l.dropWhile isBlank) = some (x, rest) ∧ r.step x = .ok r' ∧
      parseFrom fuel r' rest = .ok j := by
  rw [parseFrom]
  cases l.dropWhile isBlank with
  | nil =>
    have hnone : lexeme? [] = none := rfl
    cases r.expected <;> simp [hnone]
  | cons c l =>
    cases hlexeme : lexeme? (c :: l) with
    | none => simp [hlexeme]
    | some found =>
      obtain ⟨x, rest⟩ := found
      constructor
      · intro h
        cases hstep : r.step x with
        | error e => simp [hlexeme, hstep] at h
        | ok r' => exact .inr ⟨x, rest, r', rfl, hstep, by simpa [hlexeme, hstep] using h⟩
      · rintro (⟨⟨⟩, -⟩ | ⟨x', rest', r', ⟨⟩, hstep, hrun⟩)
        simpa [hlexeme, hstep] using hrun

/-- A reader that has read a value inside of other containers is not done with the text. -/
theorem parseFrom_within {below : List Frame} (hbelow : below ≠ [])
    (hw : Reading.Within below r s) (h : parseFrom fuel r l = .ok j) (fuel' : Nat) :
    parseFrom fuel' s l ≠ .ok k := by
  intro h'
  induction fuel generalizing fuel' r s l with
  | zero => cases h
  | succ fuel ih =>
    cases fuel' with
    | zero => cases h'
    | succ fuel' =>
      rw [parseFrom_eq_ok] at h h'
      obtain ⟨hend, hexpected⟩ | ⟨x, rest, r', hlexeme, hstep, hrun⟩ := h <;>
      obtain ⟨hend', hexpected'⟩ | ⟨x', rest', s', hlexeme', hstep', hrun'⟩ := h'
      · -- Behind the value there are the containers to be closed.
        cases hw with
        | inside hinside => exact hinside _ hexpected
        | behind hcomplete =>
          obtain ⟨frame, frames, rfl⟩ := List.exists_cons_of_ne_nil hbelow
          cases frame <;> cases hcomplete
          all_goals cases hexpected'
      · rw [hend] at hlexeme'
        cases hlexeme'
      · rw [hend'] at hlexeme
        cases hlexeme
      · cases hlexeme.symm.trans hlexeme'
        exact ih (Reading.within_step hw hstep hstep') hrun _ hrun'

theorem parseFrom_mono {fuel' : Nat} (hle : fuel ≤ fuel') (h : parseFrom fuel r l = .ok j) :
    parseFrom fuel' r l = .ok j := by
  induction fuel generalizing fuel' r l with
  | zero => cases h
  | succ fuel ih =>
    obtain ⟨fuel', rfl⟩ := Nat.exists_eq_add_of_lt hle
    rw [parseFrom_eq_ok] at h ⊢
    refine h.imp_right ?_
    rintro ⟨x, rest, r', hlexeme, hstep, hrun⟩
    exact ⟨x, rest, r', hlexeme, hstep, ih (by omega) hrun⟩

/-- Blanks in front of a text do not count. -/
theorem parse_append_of_blank {front : List Char} (hfront : ∀ c ∈ front, isBlank c = true)
    (h : parse l = .ok j) : parse (front ++ l) = .ok j := by
  have hlength : l.length + 1 ≤ (front ++ l).length + 1 := by
    rw [List.length_append]
    omega
  have hrun := parseFrom_mono hlength h
  rw [parseFrom_eq_ok, ← List.dropWhile_append_of_pos hfront, ← parseFrom_eq_ok] at hrun
  exact hrun

variable {front tail : List Char} {c : Char}

/-- An object is opened where a value may stand. -/
theorem step_openObject_eq_ok (h : r.step .openObject = .ok s) :
    (∀ j, r.expected ≠ .nothing j) ∧ s = ⟨.nameOrEnd, .object [] :: r.frames⟩ := by
  unfold Reading.step at h
  split at h
  case h_7 hexpected _ | h_8 hexpected _ =>
    rw [hexpected]
    unfold Reading.enter at h
    split at h <;> cases h
    exact ⟨by simp, rfl⟩
  case h_18 => cases h
  all_goals cases ‹Lexeme.openObject = _›

/-- Behind a lexeme, and behind a character that is no blank, an object at the end of a text is not
read as the value of the text. -/
theorem parseFrom_append_object (hc : isBlank c = false) (hname : lexeme? (c :: tail) = none)
    (hread : parse ('\x7b' :: '"' :: c :: tail) = .ok j)
    (hr : r.HasBegun ∨ r = {} ∧ ¬ ∀ d ∈ front, isBlank d = true) :
    parseFrom fuel r (front ++ '\x7b' :: '"' :: c :: tail) ≠ .ok k := by
  intro h
  induction fuel generalizing r front with
  | zero => cases h
  | succ fuel ih =>
    by_cases hfront : ∀ d ∈ front, isBlank d = true
    · -- The object is read inside of the containers that are open before it.
      have hbegun := hr.resolve_right fun hnot => hnot.2 hfront
      rw [parseFrom_eq_ok, List.dropWhile_append_of_pos hfront] at h
      obtain ⟨⟨⟩, -⟩ | ⟨x, rest, r', hlexeme, hstep, hrun⟩ := h
      cases hlexeme
      obtain ⟨hexpected, rfl⟩ := step_openObject_eq_ok hstep
      have hframes : r.frames ≠ [] := hbegun.resolve_left fun hnothing =>
        hnothing.elim hexpected
      rw [parse, parseFrom_eq_ok] at hread
      obtain ⟨⟨⟩, -⟩ | ⟨x', rest', s, hlexeme', hstep', hrun'⟩ := hread
      cases hlexeme'
      obtain ⟨-, rfl⟩ := step_openObject_eq_ok hstep'
      exact parseFrom_within hframes (.inside (by simp)) hrun' _ hrun
    · have hne : front.dropWhile isBlank ≠ [] := by
        rwa [Ne, List.dropWhile_eq_nil_iff]
      rw [parseFrom_eq_ok, List.dropWhile_append, if_neg (by simpa using hne)] at h
      obtain ⟨hend, -⟩ | ⟨x, rest, r', hlexeme, hstep, hrun⟩ := h
      · exact hne (List.append_eq_nil_iff.1 hend).1
      obtain ⟨front', rfl⟩ | rfl := lexeme?_append_brace hne hlexeme
      · exact ih (.inl (Reading.hasBegun_step (hr.symm.imp_left And.left) hstep)) hrun
      · -- The first double quote of the object has closed a text, and no lexeme stands behind it.
        cases fuel with
        | zero => cases hrun
        | succ fuel =>
          rw [parseFrom_eq_ok, List.dropWhile_cons_of_neg (by simp [hc]), hname] at hrun
          obtain ⟨⟨⟩, -⟩ | ⟨_, _, _, ⟨⟩, -⟩ := hrun

/-- **An object behind other characters.** A text that ends with an object whose first name is no
lexeme has a value if only blanks stand in front of the object, and that is the object. -/
theorem parse_append_object (hc : isBlank c = false) (hname : lexeme? (c :: tail) = none)
    (hread : parse ('\x7b' :: '"' :: c :: tail) = .ok j) :
    parse (front ++ '\x7b' :: '"' :: c :: tail) = .ok k ↔
      (∀ d ∈ front, isBlank d = true) ∧ k = j := by
  constructor
  · intro h
    have hfront : ∀ d ∈ front, isBlank d = true := by
      by_contra hnot
      exact parseFrom_append_object hc hname hread (.inr ⟨rfl, hnot⟩) h
    cases h.symm.trans (parse_append_of_blank hfront hread)
    exact ⟨hfront, rfl⟩
  · rintro ⟨hfront, rfl⟩
    exact parse_append_of_blank hfront hread

end Texts

end FormulaBook.Json
