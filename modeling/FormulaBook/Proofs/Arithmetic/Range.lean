import FormulaBook.Proofs.Arithmetic.Balance

/-!
# Where the range of numbers is left

Doubles have infinities and a value that is no number beside the finite numbers, and an evaluation
does not refuse them. It makes one of finite numbers in two ways only: a literal is too large, or
the result of an operation is.

* `Token.IsFinite`: a token that carries no other value than a finite one;
* `LeavesRange`: a row that makes a value that is not finite of finite ones;
* `forall_mem_toPostfix`: what holds of the tokens of a row holds of those of its postfix row;
* `leavesRange_of_evaluateTokens`: a row whose value is not finite leaves the range.
-/

namespace FormulaBook

/-- The value that a token carries is finite, if it carries one. -/
def Token.IsFinite (t : Token) : Prop := ∀ x, t.value = some x → x.isFinite = true

/-- The evaluation of a row leaves the range of finite numbers. -/
inductive LeavesRange (tokens : List Token) : Prop
  /-- A literal, perhaps of several that stand side by side, reads as a value that is not finite. -/
  | literal {t : Token} {x : Float} (ht : t ∈ mergeLiterals tokens) (hvalue : t.value = none)
      (hread : Decimal.toFloat? t.text = some x) (hx : x.isFinite = false)
  /-- The next operation has two finite operands and a result that is not finite. -/
  | operation {before after : List Token} {sign : OperatorToken} {left right x : Float}
      {rest : List Float}
      (hrow : toPostfix (mergeLiterals tokens) = .ok (before ++ sign.token :: after))
      (hstack : before.foldlM evaluateStep [] = .ok (right :: left :: rest))
      (hleft : left.isFinite = true) (hright : right.isFinite = true)
      (happly : sign.operator.apply left right = .ok x) (hx : x.isFinite = false)

/-! ### The tokens of a postfix row -/

namespace Yard

variable {P : Token → Prop} {y y' : Yard} {t : Token}

/-- What holds of all tokens that have been read. -/
def All (P : Token → Prop) (y : Yard) : Prop :=
  (∀ t ∈ y.output, P t) ∧ ∀ t ∈ y.waiting, P t

theorem All.release (h : y.All P) (p : Token → Bool) : (y.release p).All P := by
  refine ⟨fun t ht => ?_, fun t ht => h.2 t ((List.dropWhile_sublist p).subset ht)⟩
  rcases List.mem_append.1 ht with ht | ht
  · exact h.2 t ((List.takeWhile_sublist p).subset (List.mem_reverse.1 ht))
  · exact h.1 t ht

theorem Steps.all (h : y.Steps t y') (hy : y.All P) (ht : P t) : y'.All P := by
  cases h with
  | number hk => exact ⟨List.forall_mem_cons.2 ⟨ht, hy.1⟩, hy.2⟩
  | operator sign =>
    have hrelease := hy.release (yields sign.operator.rank)
    exact ⟨hrelease.1, List.forall_mem_cons.2 ⟨ht, hrelease.2⟩⟩
  | lparen hk => exact ⟨hy.1, List.forall_mem_cons.2 ⟨ht, hy.2⟩⟩
  | rparen hk hp hw =>
    have hrelease := hy.release (·.kind != .lparen)
    rw [All, hw, List.forall_mem_cons] at hrelease
    exact ⟨hrelease.1, hrelease.2.2⟩

end Yard

/-- What holds of the tokens of a row holds of those of its postfix row. -/
theorem forall_mem_toPostfix {P : Token → Prop} {l row : List Token} (hl : ∀ t ∈ l, P t)
    (h : toPostfix l = .ok row) : ∀ t ∈ row, P t := by
  rw [toPostfix] at h
  obtain ⟨y, hread, hfinish⟩ := bind_eq_ok.1 h
  have hall : y.All P := foldlM_invariant
    (fun t ht _ _ hy hstep => (Yard.steps_of_step hstep).all hy (hl t ht)) (by simp [Yard.All])
    hread
  obtain ⟨-, rfl⟩ := Yard.finish_eq_ok hfinish
  intro t ht
  rcases List.mem_append.1 ht with ht | ht
  · exact hall.1 t (List.mem_reverse.1 ht)
  · exact hall.2 t ht

/-! ### Evaluation -/

/-- A row of tokens with finite values whose own value is not finite leaves the range. -/
theorem leavesRange_of_evaluateTokens {tokens : List Token} (htokens : ∀ t ∈ tokens, t.IsFinite)
    {x : Float} (h : evaluateTokens tokens = .ok x) (hx : x.isFinite = false) :
    LeavesRange tokens := by
  rw [evaluateTokens] at h
  obtain ⟨row, hrow, heval⟩ := bind_eq_ok.1 h
  rw [evaluatePostfix] at heval
  obtain ⟨stack, hrun, hvalue⟩ := bind_eq_ok.1 heval
  obtain rfl := theValue_eq_ok hvalue
  -- The run begins with no number and ends with one that is not finite.
  obtain ⟨before, t, after, m, m', rfl, hbefore, hm, hstep, hm'⟩ :=
    exists_leaving_step (P := fun stack => ∀ y ∈ stack, y.isFinite = true) hrun (by simp)
      (by simp [hx])
  have hlost : ∀ {y rest}, m' = y :: rest → (∀ z ∈ rest, z.isFinite = true) →
      y.isFinite = false := by
    rintro y rest rfl hrest
    by_contra hfinite
    exact hm' (List.forall_mem_cons.2 ⟨by simpa using hfinite, hrest⟩)
  rcases evaluateStep_cases hstep with
    ⟨-, y, hnumber, heq⟩ | ⟨sign, left, right, rest, y, rfl, rfl, happly, heq⟩
  · have hy := hlost heq hm
    have hmem : ∀ u ∈ before ++ t :: after, u ∈ mergeLiterals tokens :=
      forall_mem_toPostfix (fun _ hu => hu) hrow
    have ht := hmem t (List.mem_append_right before List.mem_cons_self)
    obtain hvalue | ⟨hvalue, hread⟩ := number_eq_ok hnumber
    · have hcarried := forall_mem_mergeLiterals (P := Token.IsFinite) (fun _ _ _ ha => ha) htokens
        t ht
      cases hy.symm.trans (hcarried y hvalue)
    · exact .literal ht hvalue hread hy
  · rw [List.forall_mem_cons, List.forall_mem_cons] at hm
    exact .operation hrow hbefore hm.2.1 hm.1 happly (hlost heq hm.2.2)

end FormulaBook
