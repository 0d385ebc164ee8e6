import FormulaBook.Proofs.Arithmetic.Balance
import FormulaBook.Proofs.Arithmetic.Errors
import Mathlib.Data.List.Infix

/-!
# Parentheses that match

A row is put into postfix order exactly if its parentheses match and each name and placeholder in
it has been replaced. Nothing but the parentheses is lost then, and the numbers stay in order.

* `Token.isUnreplaced`, `Token.isWritten`, `Token.isNumber`: the tokens that matter here;
* `HasStrayClosing`, `LeavesOpen`: parentheses without a partner;
* `Yard.step_or_stray`, `Yard.foldlM_or_stray`: a step, and a row of steps, fails only at a closing
  parenthesis without a partner;
* `Yard.Has`, `Yard.Steps.has`, `Yard.has_of_foldlM`: what has been read is written out or waits;
* `toPostfix_iff_matching`: when a row has a postfix order, what is in it, and why it has none.
-/

namespace FormulaBook

namespace Token

/-- A name or a placeholder, in whose place no value stands yet. -/
def isUnreplaced (t : Token) : Bool := t.kind == .identifier || t.kind == .placeholder

/-- Any token but a parenthesis: only parentheses are not written out. -/
def isWritten (t : Token) : Bool := t.kind != .lparen && t.kind != .rparen

/-- A literal or a known value. -/
def isNumber (t : Token) : Bool := t.kind == .number

end Token

/-! ### Parentheses without a partner -/

/-- A closing parenthesis closes none: up to there, more are closed than opened. -/
def HasStrayClosing (l : List Token) : Prop := ∃ before, before <+: l ∧ depth before < 0

/-- An opening parenthesis is not closed: from there on, more are opened than closed. -/
def LeavesOpen (l : List Token) : Prop := ∃ after, after <:+ l ∧ 0 < depth after

instance (l : List Token) : Decidable (HasStrayClosing l) :=
  decidable_of_iff (∃ before ∈ l.inits, depth before < 0) (by simp [HasStrayClosing])

instance (l : List Token) : Decidable (LeavesOpen l) :=
  decidable_of_iff (∃ after ∈ l.tails, 0 < depth after) (by simp [LeavesOpen])

/-- Where every closing parenthesis has a partner, the depth at the end counts the opening ones that
have none. -/
theorem leavesOpen_iff {l : List Token} (h : ¬ HasStrayClosing l) : LeavesOpen l ↔ 0 < depth l := by
  refine ⟨?_, fun hdepth => ⟨l, List.suffix_rfl, hdepth⟩⟩
  rintro ⟨after, ⟨before, rfl⟩, hafter⟩
  have hbefore : ¬ depth before < 0 := fun hneg => h ⟨before, List.prefix_append _ _, hneg⟩
  rw [depth_append]
  omega

namespace Yard

variable {y y' : Yard} {t : Token} {l : List Token}

/-- A step fails only at a closing parenthesis for which none is open. -/
theorem step_or_stray (hranked : t.Ranked) (hname : t.isUnreplaced = false) :
    (∃ y', y.step t = .ok y') ∨
      y.step t = .error .mismatchedParentheses ∧ (y.openCount : Int) + t.nesting < 0 := by
  cases hk : t.kind with
  | number => exact .inl ⟨_, step_number hk⟩
  | operator =>
    obtain ⟨op, hop⟩ := Option.isSome_iff_exists.1 (hranked hk)
    exact .inl ⟨_, step_operator hk hop⟩
  | lparen => exact .inl ⟨_, step_lparen hk⟩
  | rparen =>
    cases hw : (y.release (·.kind != .lparen)).waiting with
    | cons p rest => exact .inl ⟨_, step_rparen hk hw⟩
    | nil =>
      have hnone : y.openCount = 0 := by
        rw [openCount, List.countP_eq_zero]
        intro u hu
        simpa using List.dropWhile_eq_nil_iff.1 hw u hu
      refine .inr ⟨by simp [step, hk, hw], ?_⟩
      rw [hnone]
      simp [Token.nesting, hk]
  | identifier | placeholder => simp [Token.isUnreplaced, hk] at hname

/-- A row of steps fails only at a closing parenthesis for which none is open. -/
theorem foldlM_or_stray (hranked : ∀ t ∈ l, t.Ranked) (hname : ∀ t ∈ l, t.isUnreplaced = false) :
    (∃ y', l.foldlM step y = .ok y') ∨ l.foldlM step y = .error .mismatchedParentheses ∧
      ∃ before, before <+: l ∧ (y.openCount : Int) + depth before < 0 := by
  induction l generalizing y with
  | nil => exact .inl ⟨y, rfl⟩
  | cons t l ih =>
    rw [List.forall_mem_cons] at hranked hname
    rw [List.foldlM_cons]
    obtain ⟨z, hz⟩ | ⟨hstep, hneg⟩ := step_or_stray (y := y) hranked.1 hname.1
    · rw [hz]
      have hcount := (steps_of_step hz).openCount_eq
      refine (ih hranked.2 hname.2 (y := z)).imp id ?_
      rintro ⟨hrest, before, hbefore, hneg⟩
      refine ⟨hrest, t :: before, List.cons_prefix_cons.2 ⟨rfl, hbefore⟩, ?_⟩
      rw [depth_cons]
      omega
    · rw [hstep]
      exact .inr ⟨rfl, [t], List.cons_prefix_cons.2 ⟨rfl, List.nil_prefix⟩, by simpa using hneg⟩

/-- In a row that has been read, no closing parenthesis is without a partner. -/
theorem not_hasStrayClosing_of_foldlM (h : l.foldlM step {} = .ok y) : ¬ HasStrayClosing l := by
  rintro ⟨before, ⟨after, rfl⟩, hneg⟩
  rw [List.foldlM_append] at h
  obtain ⟨z, hz, -⟩ := bind_eq_ok.1 h
  have hcount := openCount_of_foldlM hz
  simp only [openCount, List.countP_nil] at hcount
  omega

theorem foldlM_eq_error_of_hasStrayClosing (hranked : ∀ t ∈ l, t.Ranked)
    (hname : ∀ t ∈ l, t.isUnreplaced = false) (h : HasStrayClosing l) :
    l.foldlM step {} = .error .mismatchedParentheses := by
  obtain ⟨y, hy⟩ | ⟨herror, -⟩ := foldlM_or_stray (y := {}) hranked hname
  · exact absurd h (not_hasStrayClosing_of_foldlM hy)
  · exact herror

theorem exists_foldlM_of_not_hasStrayClosing (hranked : ∀ t ∈ l, t.Ranked)
    (hname : ∀ t ∈ l, t.isUnreplaced = false) (h : ¬ HasStrayClosing l) :
    ∃ y, l.foldlM step {} = .ok y ∧ (y.openCount : Int) = depth l := by
  obtain ⟨y, hy⟩ | ⟨-, before, hbefore, hneg⟩ := foldlM_or_stray (y := {}) hranked hname
  · exact ⟨y, hy, by simpa [openCount] using openCount_of_foldlM hy⟩
  · exact absurd ⟨before, hbefore, by simpa [openCount] using hneg⟩ h

/-! ### What has been read -/

/-- The state holds what is left of the row `l` without its parentheses: it is written out or waits,
and the numbers are written out in their order. -/
structure Has (y : Yard) (l : List Token) : Prop where
  perm : (y.output ++ y.waiting.filter (·.isWritten)).Perm (l.filter (·.isWritten))
  numbers : y.output.filter (·.isNumber) = (l.filter (·.isNumber)).reverse
  waiting : ∀ t ∈ y.waiting, t.kind = .operator ∨ t.kind = .lparen

/-- Operators that are released have only moved. -/
theorem Has.release (h : y.Has l) {p : Token → Bool} (hp : ∀ t, p t = true → t.kind ≠ .lparen) :
    (y.release p).Has l := by
  have hoperator : ∀ t ∈ y.waiting.takeWhile p, t.kind = .operator := fun t ht =>
    (h.waiting t ((List.takeWhile_sublist p).subset ht)).resolve_right
      (hp t (List.mem_takeWhile_imp ht))
  refine ⟨?_, ?_, fun t ht => h.waiting t ((List.dropWhile_sublist p).subset ht)⟩
  · have hwritten : (y.waiting.takeWhile p).filter (·.isWritten) = y.waiting.takeWhile p :=
      List.filter_eq_self.2 fun t ht => by simp [Token.isWritten, hoperator t ht]
    have hall := h.perm
    rw [← List.takeWhile_append_dropWhile (p := p) (l := y.waiting), List.filter_append, hwritten,
      ← List.append_assoc] at hall
    refine .trans (.append_right _ ?_) hall
    exact ((List.reverse_perm _).append_right _).trans List.perm_append_comm
  · have hnone : (y.waiting.takeWhile p).reverse.filter (·.isNumber) = [] := by
      rw [List.filter_eq_nil_iff]
      intro t ht
      simp [Token.isNumber, hoperator t (List.mem_reverse.1 ht)]
    show ((y.waiting.takeWhile p).reverse ++ y.output).filter (·.isNumber) = _
    rw [List.filter_append, hnone, List.nil_append, h.numbers]

/-- A token that is read is written out or waits, unless it is a parenthesis. -/
theorem Steps.has (hstep : y.Steps t y') (h : y.Has l) : y'.Has (l ++ [t]) := by
  have added {row rest : List Token} (hwritten : t.isWritten = true) (hrow : row.Perm (t :: rest))
      (hrest : rest.Perm (l.filter (·.isWritten))) :
      row.Perm ((l ++ [t]).filter (·.isWritten)) := by
    rw [List.filter_append, List.filter_singleton, hwritten]
    exact hrow.trans ((hrest.cons t).trans (List.perm_append_singleton t _).symm)
  cases hstep with
  | number hk =>
    have hwritten : t.isWritten = true := by simp [Token.isWritten, hk]
    have hnumber : t.isNumber = true := by simp [Token.isNumber, hk]
    refine ⟨added hwritten .rfl h.perm, ?_, h.waiting⟩
    rw [List.filter_append, List.filter_cons_of_pos hnumber, List.filter_singleton, hnumber,
      h.numbers]
    exact List.reverse_concat.symm
  | operator sign =>
    have hwritten : sign.token.isWritten = true := by simp [Token.isWritten, sign.isOperator]
    have hnumber : sign.token.isNumber = false := by simp [Token.isNumber, sign.isOperator]
    have hrelease := h.release (p := yields sign.operator.rank) fun t ht => by
      simp_all [yields]
    refine ⟨added hwritten ?_ hrelease.perm, ?_,
      List.forall_mem_cons.2 ⟨.inl sign.isOperator, hrelease.waiting⟩⟩
    · rw [List.filter_cons_of_pos hwritten]
      exact List.perm_middle
    · simpa [hnumber] using hrelease.numbers
  | lparen hk =>
    have hwritten : t.isWritten = false := by simp [Token.isWritten, hk]
    have hnumber : t.isNumber = false := by simp [Token.isNumber, hk]
    refine ⟨?_, ?_, List.forall_mem_cons.2 ⟨.inr hk, h.waiting⟩⟩
    · simpa [hwritten] using h.perm
    · simpa [hnumber] using h.numbers
  | @rparen _ p rest hk hp hw =>
    have hwritten : t.isWritten = false := by simp [Token.isWritten, hk]
    have hnumber : t.isNumber = false := by simp [Token.isNumber, hk]
    have hopening : p.isWritten = false := by simp [Token.isWritten, hp]
    have hrelease := h.release (p := (·.kind != .lparen)) fun t ht => by simpa using ht
    have hwaiting := hrelease.waiting
    rw [hw, List.forall_mem_cons] at hwaiting
    refine ⟨?_, ?_, hwaiting.2⟩
    · -- The opening parenthesis no longer waits, and the closing one never does.
      simpa [hwritten, hw, hopening] using hrelease.perm
    · simpa [hnumber] using hrelease.numbers

theorem has_of_foldlM {l' : List Token} (h : y.Has l) (hread : l'.foldlM step y = .ok y') :
    y'.Has (l ++ l') := by
  induction l' generalizing l y with
  | nil =>
    cases hread
    rwa [List.append_nil]
  | cons t l' ih =>
    rw [List.foldlM_cons] at hread
    obtain ⟨z, hz, hrest⟩ := bind_eq_ok.1 hread
    have hall := ih ((steps_of_step hz).has h) hrest
    rwa [List.append_assoc, List.singleton_append] at hall

end Yard

/-! ### Postfix order -/

/-- A row in postfix order is the row without its parentheses, and its numbers keep their order. -/
theorem perm_toPostfix {l row : List Token} (h : toPostfix l = .ok row) :
    row.Perm (l.filter (·.isWritten)) ∧ row.filter (·.isNumber) = l.filter (·.isNumber) := by
  rw [toPostfix] at h
  obtain ⟨y, hread, hfinish⟩ := bind_eq_ok.1 h
  have hhas : y.Has l := Yard.has_of_foldlM (l := []) ⟨.rfl, rfl, by simp⟩ hread
  obtain ⟨hopen, rfl⟩ := Yard.finish_eq_ok hfinish
  -- No parenthesis waits any more, only operators.
  have hoperator : ∀ t ∈ y.waiting, t.kind = .operator := fun t ht =>
    (hhas.waiting t ht).resolve_right (by simpa using hopen t ht)
  constructor
  · have hwritten : y.waiting.filter (·.isWritten) = y.waiting :=
      List.filter_eq_self.2 fun t ht => by simp [Token.isWritten, hoperator t ht]
    have hall := hhas.perm
    rw [hwritten] at hall
    exact ((List.reverse_perm _).append_right _).trans hall
  · have hnone : y.waiting.filter (·.isNumber) = [] := by
      rw [List.filter_eq_nil_iff]
      intro t ht
      simp [Token.isNumber, hoperator t ht]
    rw [List.filter_append, hnone, List.append_nil, List.filter_reverse, hhas.numbers,
      List.reverse_reverse]

section Outcomes

variable {l : List Token}

/-- A closing parenthesis without a partner is found in front of the first name or placeholder. -/
theorem toPostfix_of_hasStrayClosing (hl : ∀ t ∈ l, t.Ranked)
    (h : HasStrayClosing (l.takeWhile (!·.isUnreplaced))) :
    toPostfix l = .error .mismatchedParentheses := by
  have hranked : ∀ t ∈ l.takeWhile (!·.isUnreplaced), t.Ranked := fun t ht =>
    hl t ((List.takeWhile_sublist _).subset ht)
  have hname : ∀ t ∈ l.takeWhile (!·.isUnreplaced), t.isUnreplaced = false := fun t ht => by
    simpa using List.mem_takeWhile_imp ht
  have hread := Yard.foldlM_eq_error_of_hasStrayClosing hranked hname h
  rw [toPostfix, ← List.takeWhile_append_dropWhile (p := (!·.isUnreplaced)) (l := l),
    List.foldlM_append, hread]
  rfl

/-- The first name or placeholder is refused, if the row in front of it can be read. -/
theorem toPostfix_of_find? (hl : ∀ t ∈ l, t.Ranked) {t : Token}
    (hfirst : l.find? (·.isUnreplaced) = some t)
    (h : ¬ HasStrayClosing (l.takeWhile (!·.isUnreplaced))) :
    toPostfix l = .error (.invalidCharacter t.position) := by
  obtain ⟨ht, before, after, rfl, hbefore⟩ := List.find?_eq_some_iff_append.1 hfirst
  have hname : ∀ u ∈ before, u.isUnreplaced = false := fun u hu => by simpa using hbefore u hu
  have hfront : (before ++ t :: after).takeWhile (!·.isUnreplaced) = before := by
    rw [List.takeWhile_append_of_pos hbefore, List.takeWhile_cons_of_neg (by simp [ht]),
      List.append_nil]
  rw [hfront] at h
  obtain ⟨y, hy, -⟩ := Yard.exists_foldlM_of_not_hasStrayClosing
    (fun u hu => hl u (List.mem_append_left _ hu)) hname h
  have hstep : y.step t = .error (.invalidCharacter t.position) := by
    simp only [Token.isUnreplaced, Bool.or_eq_true, beq_iff_eq] at ht
    obtain hk | hk := ht <;> simp [Yard.step, hk]
  rw [toPostfix, List.foldlM_append, hy]
  show ((t :: after).foldlM Yard.step y).bind Yard.finish = _
  rw [List.foldlM_cons, hstep]
  rfl

/-- A row without names and placeholders is refused at its end if a parenthesis is open. -/
theorem toPostfix_of_forall (hl : ∀ t ∈ l, t.Ranked) (hname : ∀ t ∈ l, t.isUnreplaced = false)
    (h : ¬ HasStrayClosing l) :
    (LeavesOpen l → toPostfix l = .error .mismatchedParentheses) ∧
      (¬ LeavesOpen l → ∃ row, toPostfix l = .ok row) := by
  obtain ⟨y, hy, hcount⟩ := Yard.exists_foldlM_of_not_hasStrayClosing hl hname h
  have hopen : y.waiting.any (·.kind == .lparen) = true ↔ 0 < y.openCount := by
    rw [Yard.openCount, List.countP_pos_iff, List.any_eq_true]
  rw [leavesOpen_iff h, toPostfix, hy]
  constructor
  · intro hdepth
    show y.finish = _
    rw [Yard.finish, if_pos (hopen.2 (by omega))]
  · intro hdepth
    exact ⟨_, if_neg fun hany => absurd (hopen.1 hany) (by omega)⟩

/-- **When a row has a postfix order.** A row is refused for its parentheses if a closing one
without a partner stands in front of all names and placeholders, or if there is none of these and an
opening one has no partner. It is refused for its first name or placeholder if no such closing
parenthesis stands in front. Otherwise the row has a postfix order, which is the row without its
parentheses in another order, and the numbers keep theirs. -/
theorem toPostfix_iff_matching (hl : ∀ t ∈ l, t.Ranked) :
    let front := l.takeWhile (!·.isUnreplaced)
    let first? := l.find? (·.isUnreplaced)
    (toPostfix l = .error .mismatchedParentheses ↔
      HasStrayClosing front ∨ first? = none ∧ LeavesOpen l) ∧
    (∀ position, toPostfix l = .error (.invalidCharacter position) ↔
      (∃ t, first? = some t ∧ t.position = position) ∧ ¬ HasStrayClosing front) ∧
    (¬ HasStrayClosing front → first? = none → ¬ LeavesOpen l →
      ∃ row, toPostfix l = .ok row ∧ row.Perm (l.filter (·.isWritten)) ∧
        row.filter (·.isNumber) = l.filter (·.isNumber)) := by
  intro front first?
  by_cases hstray : HasStrayClosing front
  · simp [toPostfix_of_hasStrayClosing hl hstray, hstray]
  cases hfirst : first? with
  | some t => simp [toPostfix_of_find? hl hfirst hstray, hstray]
  | none =>
    have hname : ∀ t ∈ l, t.isUnreplaced = false := by
      simpa using List.find?_eq_none.1 hfirst
    have hfront : front = l := List.takeWhile_eq_self_iff.2 (by simpa using hname)
    rw [hfront] at hstray ⊢
    obtain ⟨hopen, hclosed⟩ := toPostfix_of_forall hl hname hstray
    by_cases hleaves : LeavesOpen l
    · simp [hopen hleaves, hstray, hleaves]
    · obtain ⟨row, hrow⟩ := hclosed hleaves
      simp [hrow, hstray, hleaves, perm_toPostfix hrow]

/-- The row `(1 - 2) * 3` can be put into postfix order. With a name in it that is not replaced, the
name decides if a closing parenthesis too many comes later, and the parenthesis if it comes
earlier. -/
theorem toPostfix_iff_matching_group :
    let opening : Token := ⟨.lparen, "(", none, some 0⟩
    let closing : Token := ⟨.rparen, ")", none, some 4⟩
    let sum : List Token :=
      [⟨.number, "1", none, some 1⟩, ⟨.operator, "-", none, some 2⟩, ⟨.number, "2", none, some 3⟩]
    let scaled : List Token := [⟨.operator, "*", none, some 5⟩, ⟨.number, "3", none, some 6⟩]
    let name : Token := ⟨.identifier, "A", none, some 7⟩
    let row := opening :: (sum ++ closing :: scaled)
    ((∀ t ∈ row, t.Ranked) ∧ ∃ row', toPostfix row = .ok row' ∧
      row'.Perm (row.filter (·.isWritten)) ∧
        row'.filter (·.isNumber) = row.filter (·.isNumber)) ∧
    toPostfix (row ++ [name, closing]) = .error (.invalidCharacter (some 7)) ∧
    toPostfix (row ++ [closing, name]) = .error .mismatchedParentheses := by
  intro opening closing sum scaled name row
  have hrow : ∀ t ∈ row, t.Ranked := by decide
  exact ⟨⟨hrow, (toPostfix_iff_matching hrow).2.2 (by decide) (by decide) (by decide)⟩,
    ((toPostfix_iff_matching (l := row ++ [name, closing]) (by decide)).2.1 (some 7)).2
      ⟨⟨name, rfl, rfl⟩, by decide⟩,
    (toPostfix_iff_matching (l := row ++ [closing, name]) (by decide)).1.2 (.inl (by decide))⟩

end Outcomes

end FormulaBook
