import FormulaBook.Proofs.Outcome
import FormulaBook.Token.Evaluate
import Mathlib.Data.List.TakeWhile

/-!
# Reading a row in parts

A row is put into postfix order from left to right. What a part of the row does to the state
between two tokens does not depend on the tokens that are already written out, and inside
parentheses it does not depend on the tokens that wait outside.

* `mergeLiterals_append_cons`: literals are not joined across a token that is no literal;
* `forall_mem_mergeLiterals`: what joined literals take over;
* `Yard.onto`: a state with an older one below it;
* `Yard.step_onto`, `foldlM_onto`: what is written out already does not matter;
* `Yard.step_onto_lparen`, `foldlM_onto_lparen`: below an open parenthesis nothing matters;
* `Yard.Writes`: a part that is only written out, such as a number or a row in parentheses;
* `toPostfix_of_writes`: the postfix order of a row with such a part.
-/

namespace FormulaBook

/-- An open parenthesis and a closing one. -/
structure Parentheses where
  opening : Token
  closing : Token
  opens : opening.kind = .lparen
  closes : closing.kind = .rparen

/-! ### Joined literals -/

section Literals

variable {t : Token}

theorem mergeAfter_of_not_isLiteral (ht : t.isLiteral = false) (l : List Token) :
    t.mergeAfter l = t :: mergeLiterals l := by
  cases l <;> simp [Token.mergeAfter, mergeLiterals, ht]

theorem mergeAfter_append_cons (ht : t.isLiteral = false) (a : Token) (xs ys : List Token) :
    a.mergeAfter (xs ++ t :: ys) = a.mergeAfter xs ++ t :: mergeLiterals ys := by
  induction xs generalizing a with
  | nil => simp [Token.mergeAfter, ht, mergeAfter_of_not_isLiteral ht]
  | cons b xs ih =>
    simp only [List.cons_append, Token.mergeAfter]
    split
    · exact ih (a.join b)
    · rw [ih b, List.cons_append]

/-- Literals are not joined across a token that is no literal. -/
theorem mergeLiterals_append_cons (ht : t.isLiteral = false) (xs ys : List Token) :
    mergeLiterals (xs ++ t :: ys) = mergeLiterals xs ++ t :: mergeLiterals ys := by
  cases xs with
  | nil => exact mergeAfter_of_not_isLiteral ht ys
  | cons a xs => exact mergeAfter_append_cons ht a xs ys

/-- What holds of the tokens of a row holds of the joined ones, if it does not depend on the text of
a literal. -/
theorem forall_mem_mergeLiterals {P : Token → Prop}
    (hjoin : ∀ a b : Token, a.isLiteral = true → P a → P (a.join b)) {l : List Token}
    (hl : ∀ t ∈ l, P t) : ∀ t ∈ mergeLiterals l, P t := by
  have general : ∀ a, P a → ∀ l : List Token, (∀ t ∈ l, P t) → ∀ t ∈ a.mergeAfter l, P t := by
    intro a ha l
    induction l generalizing a with
    | nil => simpa [Token.mergeAfter] using ha
    | cons b rest ih =>
      intro hl
      rw [List.forall_mem_cons] at hl
      rw [Token.mergeAfter]
      split
      · rename_i hboth
        exact ih (a.join b) (hjoin a b (Bool.and_eq_true_iff.1 hboth).1 ha) hl.2
      · exact List.forall_mem_cons.2 ⟨ha, ih b hl.1 hl.2⟩
  cases l with
  | nil => simp
  | cons a rest =>
    rw [List.forall_mem_cons] at hl
    exact general a hl.1 rest hl.2

theorem isLiteral_of_kind_ne (ht : t.kind ≠ .number) : t.isLiteral = false := by
  simp [Token.isLiteral, ht]

end Literals

/-! ### One state on another -/

namespace Yard

/-- The state `y` on an older one, which has written out `out` and lets `waiting` wait. -/
def onto (out waiting : List Token) (y : Yard) : Yard :=
  ⟨y.output ++ out, y.waiting ++ waiting⟩

variable {out waiting : List Token}

/-- A release that stops at the older tokens is a release of the newer ones. -/
theorem release_onto {p : Token → Bool} (h : waiting.takeWhile p = []) (y : Yard) :
    (y.onto out waiting).release p = (y.release p).onto out waiting := by
  have hdrop : waiting.dropWhile p = waiting := by
    have := List.takeWhile_append_dropWhile (p := p) (l := waiting)
    rwa [h, List.nil_append] at this
  have htake : (y.waiting ++ waiting).takeWhile p = y.waiting.takeWhile p := by
    rw [List.takeWhile_append, h, List.append_nil]
    split
    · rename_i hlen
      exact ((List.takeWhile_prefix p).eq_of_length hlen).symm
    · rfl
  have hrest : (y.waiting ++ waiting).dropWhile p = y.waiting.dropWhile p ++ waiting := by
    rw [List.dropWhile_append, hdrop]
    split
    · rename_i hempty
      rw [List.isEmpty_iff.1 hempty, List.nil_append]
    · rfl
  simp only [release, onto, htake, hrest, List.append_assoc]

theorem release_of_forall {p : Token → Bool} {y : Yard} (h : ∀ t ∈ y.waiting, p t = true) :
    y.release p = ⟨y.waiting.reverse ++ y.output, []⟩ := by
  rw [release, List.takeWhile_eq_self_iff.2 h, List.dropWhile_eq_nil_iff.2 h]

/-! ### The steps -/

section Steps

variable {t : Token} {y : Yard}

theorem step_number (h : t.kind = .number) : y.step t = .ok ⟨t :: y.output, y.waiting⟩ := by
  rw [step, h]

theorem step_operator {op : Operator} (h : t.kind = .operator)
    (hop : Operator.ofText? t.text = some op) :
    y.step t = .ok ⟨(y.release (yields op.rank)).output,
      t :: (y.release (yields op.rank)).waiting⟩ := by
  rw [step, h]
  simp only [hop]

theorem step_lparen (h : t.kind = .lparen) : y.step t = .ok ⟨y.output, t :: y.waiting⟩ := by
  rw [step, h]

theorem step_rparen (h : t.kind = .rparen) {p : Token} {rest : List Token}
    (hw : (y.release (·.kind != .lparen)).waiting = p :: rest) :
    y.step t = .ok ⟨(y.release (·.kind != .lparen)).output, rest⟩ := by
  rw [step, h]
  simp only [hw]

/-- What is written out already does not matter for a step. -/
theorem step_onto (out : List Token) (y : Yard) (t : Token) :
    (y.onto out []).step t = (y.step t).map (·.onto out []) := by
  have release (p : Token → Bool) : (y.onto out []).release p = (y.release p).onto out [] :=
    release_onto List.takeWhile_nil y
  unfold step
  cases t.kind with
  | number | lparen | identifier | placeholder => rfl
  | operator =>
    cases Operator.ofText? t.text with
    | none => rfl
    | some op =>
      simp only [release]
      rfl
  | rparen =>
    simp only [release]
    cases h : (y.release (·.kind != .lparen)).waiting with
    | nil => simp [onto, h, Except.map]
    | cons p rest => simp [onto, h, Except.map]

/-- A step inside parentheses does not reach the tokens outside. -/
theorem step_onto_lparen {p : Token} (hp : p.kind = .lparen) {y' : Yard} (h : y.step t = .ok y') :
    (y.onto out (p :: waiting)).step t = .ok (y'.onto out (p :: waiting)) := by
  -- Neither an operator nor a closing parenthesis lets go of the open one.
  have release {q : Token → Bool} (hq : q p = false) :
      (y.onto out (p :: waiting)).release q = (y.release q).onto out (p :: waiting) :=
    release_onto (List.takeWhile_cons_of_neg (by simp [hq])) y
  cases hk : t.kind with
  | number =>
    rw [step_number hk] at h ⊢
    cases h
    rfl
  | operator =>
    cases hop : Operator.ofText? t.text with
    | none => simp [step, hk, hop] at h
    | some op =>
      rw [step_operator hk hop] at h ⊢
      rw [release (by simp [yields, hp])]
      cases h
      rfl
  | lparen =>
    rw [step_lparen hk] at h ⊢
    cases h
    rfl
  | rparen =>
    cases hw : (y.release (·.kind != .lparen)).waiting with
    | nil => simp [step, hk, hw] at h
    | cons q rest =>
      have hr := release (q := (·.kind != .lparen)) (by simp [hp])
      have hw' : ((y.onto out (p :: waiting)).release (·.kind != .lparen)).waiting =
          q :: (rest ++ p :: waiting) := by
        rw [hr]
        simp [onto, hw]
      rw [step_rparen hk hw] at h
      rw [step_rparen hk hw', hr]
      cases h
      rfl
  | identifier | placeholder => simp [step, hk] at h

end Steps

/-! ### Parts of a row -/

/-- What is written out already does not matter for the tokens that follow. -/
theorem foldlM_onto (out l : List Token) (y : Yard) :
    l.foldlM step (y.onto out []) = (l.foldlM step y).map (·.onto out []) :=
  foldlM_map (step_onto out) l y

/-- A row that can be read by itself is read alike inside parentheses. -/
theorem foldlM_onto_lparen {p : Token} (hp : p.kind = .lparen) {l : List Token} {y y' : Yard}
    (h : l.foldlM step y = .ok y') :
    l.foldlM step (y.onto out (p :: waiting)) = .ok (y'.onto out (p :: waiting)) := by
  have hstep : ∀ (z : Yard) t z', z.step t = .ok z' →
      (z.onto out (p :: waiting)).step t = .ok (z'.onto out (p :: waiting)) :=
    fun z t z' hz => step_onto_lparen hp hz
  exact foldlM_frame hstep h

theorem finish_onto (out : List Token) (y : Yard) :
    (y.onto out []).finish = y.finish.map (out.reverse ++ ·) := by
  simp only [finish, onto, List.append_nil]
  split
  · rfl
  · simp [Except.map]

theorem finish_eq_ok {y : Yard} {row : List Token} (h : y.finish = .ok row) :
    (∀ t ∈ y.waiting, (t.kind != .lparen) = true) ∧ y.output.reverse ++ y.waiting = row := by
  unfold finish at h
  split at h
  · cases h
  · rename_i hopen
    refine ⟨fun t ht => ?_, Except.ok.inj h⟩
    rw [bne_iff_ne]
    exact fun hk => hopen (List.any_eq_true.2 ⟨t, ht, by simp [hk]⟩)

/-- Reading `tokens` writes out `row` in any context, and leaves nothing waiting. -/
def Writes (tokens row : List Token) : Prop :=
  ∀ y : Yard, tokens.foldlM step y = .ok ⟨row.reverse ++ y.output, y.waiting⟩

theorem writes_number {t : Token} (h : t.kind = .number) : Writes [t] [t] := by
  intro y
  rw [List.foldlM_cons, step_number h]
  rfl

/-- A row in parentheses is written out in its own postfix order. -/
theorem writes_group (p : Parentheses) {tokens row : List Token} (h : toPostfix tokens = .ok row) :
    Writes (p.opening :: (tokens ++ [p.closing])) row := by
  intro y
  rw [toPostfix] at h
  obtain ⟨b, hb, hfinish⟩ := bind_eq_ok.1 h
  obtain ⟨hwaiting, hrow⟩ := finish_eq_ok hfinish
  -- The closing parenthesis writes out all that waits inside, down to the opening one.
  have hrel : (b.onto y.output (p.opening :: y.waiting)).release (·.kind != .lparen) =
      ⟨b.waiting.reverse ++ b.output ++ y.output, p.opening :: y.waiting⟩ := by
    rw [release_onto (List.takeWhile_cons_of_neg (by simp [p.opens])),
      release_of_forall hwaiting]
    rfl
  rw [List.foldlM_cons, step_lparen p.opens]
  show (tokens ++ [p.closing]).foldlM step
    ((⟨[], []⟩ : Yard).onto y.output (p.opening :: y.waiting)) = _
  rw [List.foldlM_append, foldlM_onto_lparen p.opens hb]
  show [p.closing].foldlM step _ = _
  rw [List.foldlM_cons, step_rparen p.closes (by rw [hrel]), hrel, ← hrow, List.reverse_append,
    List.reverse_reverse]
  rfl

/-- The postfix order of a row with a part that is written out by itself. -/
theorem toPostfix_of_writes {part row : List Token} (h : Writes part row) (xs ys : List Token) :
    toPostfix (xs ++ part ++ ys) =
      (xs.foldlM step {}).bind fun y =>
        ((ys.foldlM step ⟨[], y.waiting⟩).bind finish).map (y.output.reverse ++ row ++ ·) := by
  rw [toPostfix, List.foldlM_append, List.foldlM_append]
  cases xs.foldlM step {} with
  | error e => rfl
  | ok y =>
    -- What follows the part is read on the part's output, so that output can be put in front.
    have hbase : (⟨row.reverse ++ y.output, y.waiting⟩ : Yard) =
        (⟨[], y.waiting⟩ : Yard).onto (row.reverse ++ y.output) [] := by simp [onto]
    show (part.foldlM step y >>= fun z => ys.foldlM step z).bind finish = _
    rw [h y]
    show (ys.foldlM step ⟨row.reverse ++ y.output, y.waiting⟩).bind finish =
      ((ys.foldlM step ⟨[], y.waiting⟩).bind finish).map (y.output.reverse ++ row ++ ·)
    rw [hbase, foldlM_onto]
    cases ys.foldlM step ⟨[], y.waiting⟩ with
    | error e => rfl
    | ok z =>
      show (z.onto (row.reverse ++ y.output) []).finish =
        z.finish.map (y.output.reverse ++ row ++ ·)
      rw [finish_onto, List.reverse_append, List.reverse_reverse]

end Yard

end FormulaBook
