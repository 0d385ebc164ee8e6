import FormulaBook.Proofs.Arithmetic.ExprTree
import FormulaBook.Proofs.Arithmetic.Yard

/-!
# The grammar of expressions

The rows of tokens that are well formed are those of the grammar

    E ::= E (+|-) T | T        T ::= T (*|/) F | F        F ::= NUMBER | ( E )

in which `*` and `/` bind tighter than `+` and `-` and all four group to the left. Such a row is
put into the postfix order of its derivation tree, and so its evaluation is that of the tree.

* `Category`, `Derivation`: the nonterminals and the derivation trees;
* `Derivation.tokens`, `Derivation.tree`: the row that is derived, and its expression tree;
* `Yard.Reads`: what a row of a category does to the state between two tokens, in any context;
* `toPostfix_tokens`: the postfix order of a derived row;
* `evaluateTokens_tokens`: its value, with the errors.
-/

namespace FormulaBook

/-- The nonterminals of the grammar, `E`, `T` and `F`. -/
inductive Category where
  | sum
  | product
  | factor

/-- The derivation trees of a nonterminal. -/
inductive Derivation : Category → Type where
  | number (n : NumberToken) : Derivation .factor
  | group (p : Parentheses) (inner : Derivation .sum) : Derivation .factor
  | factor (d : Derivation .factor) : Derivation .product
  | product (d : Derivation .product) : Derivation .sum
  /-- A product and a factor with `*` or `/` between them. -/
  | scale (left : Derivation .product) (sign : OperatorToken) (right : Derivation .factor)
      (rank : sign.operator.rank = 2) : Derivation .product
  /-- A sum and a product with `+` or `-` between them. -/
  | add (left : Derivation .sum) (sign : OperatorToken) (right : Derivation .product)
      (rank : sign.operator.rank = 1) : Derivation .sum

namespace Derivation

/-- The row that is derived. -/
def tokens {c : Category} : Derivation c → List Token
  | .number n => [n.token]
  | .group p inner => p.opening :: (inner.tokens ++ [p.closing])
  | .factor d => d.tokens
  | .product d => d.tokens
  | .scale left sign right _ => left.tokens ++ sign.token :: right.tokens
  | .add left sign right _ => left.tokens ++ sign.token :: right.tokens

/-- The derivation tree without its parentheses and without the rules of one nonterminal. -/
def tree {c : Category} : Derivation c → ExprTree
  | .number n => .leaf n
  | .group _ inner => inner.tree
  | .factor d => d.tree
  | .product d => d.tree
  | .scale left sign right _ => .node left.tree sign right.tree
  | .add left sign right _ => .node left.tree sign right.tree

/-- Two literals never follow each other in a derived row. -/
theorem mergeLiterals_tokens {c : Category} (d : Derivation c) :
    mergeLiterals d.tokens = d.tokens := by
  have sign_apart (s : OperatorToken) : s.token.isLiteral = false :=
    isLiteral_of_kind_ne (by simp [s.isOperator])
  induction d with
  | number n => rfl
  | group p inner ih =>
    have hopen : p.opening.isLiteral = false := isLiteral_of_kind_ne (by simp [p.opens])
    have hclose : p.closing.isLiteral = false := isLiteral_of_kind_ne (by simp [p.closes])
    have h := mergeLiterals_append_cons hopen [] (inner.tokens ++ [p.closing])
    rw [mergeLiterals_append_cons hclose inner.tokens [], ih] at h
    exact h
  | factor d ih => exact ih
  | product d ih => exact ih
  | scale left sign right _ ihl ihr | add left sign right _ ihl ihr =>
    rw [tokens, mergeLiterals_append_cons (sign_apart sign), ihl, ihr]

end Derivation

/-! ### Reading a derived row -/

namespace Yard

/-- The state `b` has read a row whose postfix order is `row`: what is not written out waits, and
no operator that waits has a rank below `rank`. -/
structure Holds (rank : Nat) (row : List Token) (b : Yard) : Prop where
  row_eq : b.output.reverse ++ b.waiting = row
  yields : ∀ t ∈ b.waiting, Yard.yields rank t = true

/-- In any context in which the innermost waiting token is no operator of at least the given rank,
reading `tokens` puts a state that holds `row` on the older one. -/
def Reads (rank : Nat) (tokens row : List Token) : Prop :=
  ∀ y : Yard, y.waiting.takeWhile (Yard.yields rank) = [] →
    ∃ b : Yard, b.Holds rank row ∧ tokens.foldlM step y = .ok (b.onto y.output y.waiting)

theorem yields_sign {rank : Nat} {sign : OperatorToken} :
    Yard.yields rank sign.token = true ↔ rank ≤ sign.operator.rank := by
  simp [Yard.yields, sign.isOperator, sign.denotes]

theorem yields_mono {r s : Nat} (h : r ≤ s) {t : Token} (ht : Yard.yields s t = true) :
    Yard.yields r t = true := by
  simp only [Yard.yields, Bool.and_eq_true, Option.any_eq_true, decide_eq_true_eq] at ht ⊢
  obtain ⟨hk, op, hop, hs⟩ := ht
  exact ⟨hk, op, hop, h.trans hs⟩

theorem Holds.mono {r s : Nat} (h : r ≤ s) {row : List Token} {b : Yard} (hb : b.Holds s row) :
    b.Holds r row :=
  ⟨hb.row_eq, fun t ht => yields_mono h (hb.yields t ht)⟩

theorem Reads.mono {r s : Nat} (h : r ≤ s) {tokens row : List Token} (hr : Reads s tokens row) :
    Reads r tokens row := by
  intro y hy
  have hs : y.waiting.takeWhile (Yard.yields s) = [] := by
    cases hw : y.waiting with
    | nil => rfl
    | cons t rest =>
      rw [hw] at hy
      refine List.takeWhile_cons_of_neg fun ht => ?_
      rw [List.takeWhile_cons_of_pos (yields_mono h ht)] at hy
      cases hy
  obtain ⟨b, hb, hrun⟩ := hr y hs
  exact ⟨b, hb.mono h, hrun⟩

/-- A row that is written out by itself lets nothing wait. -/
theorem Writes.reads {tokens row : List Token} (h : Writes tokens row) (r : Nat) :
    Reads r tokens row := by
  intro y _
  exact ⟨⟨row.reverse, []⟩, ⟨by simp, by simp⟩, h y⟩

theorem Reads.toPostfix {tokens row : List Token} (h : Reads 1 tokens row) :
    toPostfix tokens = .ok row := by
  obtain ⟨b, hb, hrun⟩ := h {} rfl
  have hopen : b.waiting.any (·.kind == .lparen) = false := by
    rw [List.any_eq_false]
    intro t ht
    have := hb.yields t ht
    simp only [Yard.yields, Bool.and_eq_true, beq_iff_eq] at this
    simp [this.1]
  rw [FormulaBook.toPostfix, hrun]
  simp [Except.bind, finish, onto, hopen, hb.row_eq]

/-- An operator between two rows lets go of all that waits in the left one, waits itself below the
right one, and so follows both in postfix order. -/
theorem Reads.binary {r : Nat} {sign : OperatorToken} (hsign : sign.operator.rank = r)
    {left right row row' : List Token} (hl : Reads r left row) (hr : Reads (r + 1) right row') :
    Reads r (left ++ sign.token :: right) (row ++ row' ++ [sign.token]) := by
  intro y hy
  obtain ⟨b, hb, hrun⟩ := hl y hy
  have hrel : (b.onto y.output y.waiting).release (Yard.yields r) =
      ⟨b.waiting.reverse ++ b.output ++ y.output, y.waiting⟩ := by
    rw [release_onto hy, release_of_forall hb.yields]
    rfl
  -- The right row is read with `sign` on top, whose rank is too low for it to be let go of there.
  obtain ⟨b', hb', hrun'⟩ := hr ⟨b.waiting.reverse ++ b.output ++ y.output,
    sign.token :: y.waiting⟩ (List.takeWhile_cons_of_neg (by rw [yields_sign]; omega))
  refine ⟨⟨b'.output ++ (b.waiting.reverse ++ b.output), b'.waiting ++ [sign.token]⟩,
    ⟨by simp [← hb.row_eq, ← hb'.row_eq], ?_⟩, ?_⟩
  · intro t ht
    rcases List.mem_append.1 ht with ht | ht
    · exact yields_mono (Nat.le_succ r) (hb'.yields t ht)
    · rw [List.mem_singleton.1 ht, yields_sign, hsign]
  · rw [List.foldlM_append, hrun]
    show (sign.token :: right).foldlM step _ = _
    rw [List.foldlM_cons, step_operator sign.isOperator sign.denotes, hsign, hrel]
    show right.foldlM step _ = _
    rw [hrun']
    simp [onto]

end Yard

/-- The least rank of an operator that stands outside parentheses in a row of a category. -/
def Category.rank : Category → Nat
  | .sum => 1
  | .product => 2
  | .factor => 3

namespace Derivation

/-- A derived row is read, in any context, as the postfix order of its tree. -/
theorem reads {c : Category} (d : Derivation c) : Yard.Reads c.rank d.tokens d.tree.postorder := by
  induction d with
  | number n => exact (Yard.writes_number n.isNumber).reads 3
  | group p inner ih => exact (Yard.writes_group p ih.toPostfix).reads 3
  | factor d ih => exact ih.mono (by decide)
  | product d ih => exact ih.mono (by decide)
  | scale left sign right rank ihl ihr => exact ihl.binary rank ihr
  | add left sign right rank ihl ihr => exact ihl.binary rank ihr

end Derivation

theorem toPostfix_tokens (d : Derivation .sum) : toPostfix d.tokens = .ok d.tree.postorder :=
  d.reads.toPostfix

/-- **A well-formed row has the value of its derivation tree**: the operands are evaluated from left
to right and each operator after its operands, and the first literal that is no number, or the
first division by zero, decides the error. -/
theorem evaluateTokens_tokens (d : Derivation .sum) :
    evaluateTokens d.tokens = d.tree.value ∧
      ∀ e, evaluateTokens d.tokens = .error e →
        e = .invalidExpression .literal ∨ e = .divisionByZero := by
  have h : evaluateTokens d.tokens = d.tree.value := by
    rw [evaluateTokens, d.mergeLiterals_tokens, toPostfix_tokens]
    exact evaluatePostfix_postorder d.tree
  exact ⟨h, fun e he => ExprTree.value_eq_error (h ▸ he)⟩

end FormulaBook
