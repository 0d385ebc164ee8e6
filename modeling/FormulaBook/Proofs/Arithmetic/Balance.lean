import FormulaBook.Proofs.Arithmetic.Block
import FormulaBook.Proofs.Arithmetic.ExprTree

/-!
# What a row has too many of

The postfix order of a row is accepted by counting alone: the operands that operators have not used
up, of which one must be left, and the parentheses that are open, of which none must be left. Both
counts are kept by every step, so they can be read off the row itself.

* `Token.weight`, `surplus`: operands count up and operators down;
* `Token.nesting`, `depth`, `Yard.openCount`: open parentheses count up and closing ones down;
* `count_of_foldlM`: what each step of a run counts, the run counts for its row;
* `Yard.Steps`: what a token can do to the state between two tokens, one constructor for a kind;
* `Yard.Steps.surplus_eq`, `Yard.Steps.openCount_eq`: what one step keeps;
* `Yard.surplus_of_foldlM`, `Yard.openCount_of_foldlM`, `surplus_toPostfix`: what a whole row keeps;
* `surplus_of_evaluatePostfix`: a row that has a value has one operand left.
-/

namespace FormulaBook

/-! ### Counting tokens -/

/-- Whether a kind of token is an operand by itself. -/
def TokenKind.isOperand : TokenKind → Bool
  | .number | .identifier | .placeholder => true
  | _ => false

namespace Token

/-- An operand counts up and an operator, which makes one of two, counts down. -/
def weight (t : Token) : Int :=
  if t.kind.isOperand then 1 else if t.kind = .operator then -1 else 0

/-- An open parenthesis counts up and a closing one counts down. -/
def nesting (t : Token) : Int :=
  if t.kind = .lparen then 1 else if t.kind = .rparen then -1 else 0

end Token

/-- How many operands a row has more than its operators use up. -/
def surplus : List Token → Int
  | [] => 0
  | t :: l => t.weight + surplus l

@[simp] theorem surplus_nil : surplus [] = 0 := rfl

@[simp] theorem surplus_cons (t : Token) (l : List Token) :
    surplus (t :: l) = t.weight + surplus l := rfl

@[simp] theorem surplus_append (l l' : List Token) :
    surplus (l ++ l') = surplus l + surplus l' := by
  induction l with
  | nil => simp
  | cons t l ih =>
    rw [List.cons_append, surplus_cons, surplus_cons, ih]
    omega

@[simp] theorem surplus_reverse (l : List Token) : surplus l.reverse = surplus l := by
  induction l with
  | nil => rfl
  | cons t l ih =>
    rw [List.reverse_cons, surplus_append, ih, surplus_cons, surplus_cons, surplus_nil]
    omega

/-- How many more parentheses a row opens than it closes. -/
def depth : List Token → Int
  | [] => 0
  | t :: l => t.nesting + depth l

@[simp] theorem depth_nil : depth [] = 0 := rfl

@[simp] theorem depth_cons (t : Token) (l : List Token) :
    depth (t :: l) = t.nesting + depth l := rfl

@[simp] theorem depth_append (l l' : List Token) : depth (l ++ l') = depth l + depth l' := by
  induction l with
  | nil => simp
  | cons t l ih =>
    rw [List.cons_append, depth_cons, depth_cons, ih]
    omega

/-- If each step of a run adds what its token counts, then the run adds the total of its row. -/
theorem count_of_foldlM {ε σ : Type} {step : σ → Token → Except ε σ} (count : σ → Int)
    {weight : Token → Int} {total : List Token → Int} (hnil : total [] = 0)
    (hcons : ∀ t l, total (t :: l) = weight t + total l)
    (hstep : ∀ s t s', step s t = .ok s' → count s' = count s + weight t) {l : List Token}
    {s s' : σ} (h : l.foldlM step s = .ok s') : count s' = count s + total l := by
  induction l generalizing s with
  | nil =>
    cases h
    rw [hnil]
    omega
  | cons t l ih =>
    rw [List.foldlM_cons] at h
    obtain ⟨between, hbetween, hrest⟩ := bind_eq_ok.1 h
    rw [ih hrest, hstep s t between hbetween, hcons]
    omega

/-! ### The steps that put a row into postfix order -/

namespace Yard

/-- What a token can do to the state between two tokens. -/
inductive Steps (y : Yard) : Token → Yard → Prop
  | number {t : Token} (hk : t.kind = .number) : Steps y t ⟨t :: y.output, y.waiting⟩
  | operator (sign : OperatorToken) :
      Steps y sign.token ⟨(y.release (yields sign.operator.rank)).output,
        sign.token :: (y.release (yields sign.operator.rank)).waiting⟩
  | lparen {t : Token} (hk : t.kind = .lparen) : Steps y t ⟨y.output, t :: y.waiting⟩
  | rparen {t p : Token} {rest : List Token} (hk : t.kind = .rparen) (hp : p.kind = .lparen)
      (hw : (y.release (·.kind != .lparen)).waiting = p :: rest) :
      Steps y t ⟨(y.release (·.kind != .lparen)).output, rest⟩

variable {y y' : Yard} {t : Token}

theorem steps_of_step (h : y.step t = .ok y') : y.Steps t y' := by
  cases hk : t.kind with
  | number =>
    rw [step_number hk] at h
    cases h
    exact .number hk
  | operator =>
    cases hop : Operator.ofText? t.text with
    | none => simp [step, hk, hop] at h
    | some op =>
      rw [step_operator hk hop] at h
      cases h
      exact .operator ⟨t, op, hk, hop⟩
  | lparen =>
    rw [step_lparen hk] at h
    cases h
    exact .lparen hk
  | rparen =>
    cases hw : (y.release (·.kind != .lparen)).waiting with
    | nil => simp [step, hk, hw] at h
    | cons p rest =>
      rw [step_rparen hk hw] at h
      cases h
      -- The release stops at an open parenthesis only.
      have hstop := List.head?_dropWhile_not (fun u : Token => u.kind != .lparen) y.waiting
      rw [show (y.waiting.dropWhile _).head? = some p from congrArg List.head? hw] at hstop
      exact .rparen hk (by simpa using hstop) hw
  | identifier | placeholder => simp [step, hk] at h

/-- The surplus of the output and of what waits. -/
def surplus (y : Yard) : Int := FormulaBook.surplus y.output + FormulaBook.surplus y.waiting

/-- How many parentheses are open. -/
def openCount (y : Yard) : Nat := y.waiting.countP (·.kind == .lparen)

/-- A release moves tokens and changes none. -/
theorem surplus_release (p : Token → Bool) (y : Yard) : (y.release p).surplus = y.surplus := by
  have hall := congrArg FormulaBook.surplus
    (List.takeWhile_append_dropWhile (p := p) (l := y.waiting))
  rw [surplus_append] at hall
  simp only [surplus, release, surplus_append, surplus_reverse]
  omega

/-- A release of other tokens leaves the open parentheses. -/
theorem openCount_release {p : Token → Bool} (hp : ∀ t : Token, p t = true → t.kind ≠ .lparen)
    (y : Yard) : (y.release p).openCount = y.openCount := by
  have hnone : (y.waiting.takeWhile p).countP (·.kind == .lparen) = 0 := by
    rw [List.countP_eq_zero]
    intro t ht
    simpa using hp t (List.mem_takeWhile_imp ht)
  have hall := congrArg (List.countP (·.kind == .lparen))
    (List.takeWhile_append_dropWhile (p := p) (l := y.waiting))
  rw [List.countP_append, hnone, Nat.zero_add] at hall
  exact hall

namespace Steps

theorem surplus_eq (h : y.Steps t y') : y'.surplus = y.surplus + t.weight := by
  cases h with
  | number hk =>
    simp only [surplus, surplus_cons, Token.weight, hk, TokenKind.isOperand]
    omega
  | operator sign =>
    have hrelease := surplus_release (yields sign.operator.rank) y
    simp only [surplus, surplus_cons] at hrelease ⊢
    omega
  | lparen hk =>
    simp [surplus, Token.weight, hk, TokenKind.isOperand]
  | @rparen t p rest hk hp hw =>
    have hrelease := surplus_release (·.kind != .lparen) y
    simp only [surplus, hw, surplus_cons, Token.weight, hp, hk, TokenKind.isOperand] at hrelease ⊢
    simpa using hrelease

theorem openCount_eq (h : y.Steps t y') : (y'.openCount : Int) = y.openCount + t.nesting := by
  cases h with
  | number hk => simp [openCount, Token.nesting, hk]
  | operator sign =>
    have hrelease := openCount_release (p := yields sign.operator.rank)
      (fun t ht => by simp_all [yields]) y
    simp only [openCount] at hrelease ⊢
    simp [Token.nesting, sign.isOperator, hrelease]
  | lparen hk => simp [openCount, Token.nesting, hk]
  | @rparen t p rest hk hp hw =>
    have hrelease := openCount_release (p := (·.kind != .lparen)) (fun t ht => by simpa using ht) y
    simp only [openCount, hw, List.countP_cons, hp, beq_self_eq_true, if_true] at hrelease ⊢
    simp only [Token.nesting, hk, reduceCtorEq, if_false, if_true]
    omega

end Steps

/-- Every step of a row keeps the surplus of what has been read. -/
theorem surplus_of_foldlM {l : List Token} (h : l.foldlM step y = .ok y') :
    y'.surplus = y.surplus + FormulaBook.surplus l :=
  count_of_foldlM surplus surplus_nil surplus_cons
    (fun _ _ _ hstep => (steps_of_step hstep).surplus_eq) h

/-- Every step of a row counts the parentheses that it opens and closes. -/
theorem openCount_of_foldlM {l : List Token} (h : l.foldlM step y = .ok y') :
    (y'.openCount : Int) = y.openCount + depth l :=
  count_of_foldlM (fun y : Yard => (y.openCount : Int)) depth_nil depth_cons
    (fun _ _ _ hstep => (steps_of_step hstep).openCount_eq) h

/-- A finished row has no parenthesis open, and all of its tokens are written out. -/
theorem of_finish {row : List Token} (h : y.finish = .ok row) :
    y.openCount = 0 ∧ FormulaBook.surplus row = y.surplus := by
  obtain ⟨hwaiting, rfl⟩ := finish_eq_ok h
  refine ⟨?_, by simp [surplus]⟩
  rw [openCount, List.countP_eq_zero]
  intro t ht
  simpa using hwaiting t ht

end Yard

/-- Postfix order changes no operand and no operator. -/
theorem surplus_toPostfix {l row : List Token} (h : toPostfix l = .ok row) :
    surplus row = surplus l := by
  rw [toPostfix] at h
  obtain ⟨y, hread, hfinish⟩ := bind_eq_ok.1 h
  rw [(Yard.of_finish hfinish).2, Yard.surplus_of_foldlM hread]
  simp [Yard.surplus]

/-! ### The stack of an evaluation -/

theorem length_evaluateStep {stack stack' : List Float} {t : Token}
    (h : evaluateStep stack t = .ok stack') :
    (stack'.length : Int) = stack.length + t.weight := by
  obtain ⟨hk, x, -, rfl⟩ | ⟨sign, left, right, rest, x, rfl, rfl, -, rfl⟩ := evaluateStep_cases h
  · simp [Token.weight, hk, TokenKind.isOperand]
  · have hweight : sign.token.weight = -1 := by
      simp [Token.weight, sign.isOperator, TokenKind.isOperand]
    rw [hweight, List.length_cons, List.length_cons, List.length_cons]
    omega

theorem length_of_foldlM_evaluateStep {l : List Token} {stack stack' : List Float}
    (h : l.foldlM evaluateStep stack = .ok stack') :
    (stack'.length : Int) = stack.length + surplus l :=
  count_of_foldlM (fun stack : List Float => (stack.length : Int)) surplus_nil surplus_cons
    (fun _ _ _ hstep => length_evaluateStep hstep) h

/-- A row in postfix order that has a value leaves one operand. -/
theorem surplus_of_evaluatePostfix {row : List Token} {x : Float}
    (h : evaluatePostfix row = .ok x) : surplus row = 1 := by
  rw [evaluatePostfix] at h
  obtain ⟨stack, hrun, hvalue⟩ := bind_eq_ok.1 h
  have hlength := length_of_foldlM_evaluateStep hrun
  obtain rfl := theValue_eq_ok hvalue
  simpa using hlength.symm

end FormulaBook
