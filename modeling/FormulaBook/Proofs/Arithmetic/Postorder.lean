import FormulaBook.Proofs.Arithmetic.Block
import FormulaBook.Proofs.Arithmetic.ExprTree
import Mathlib.Data.List.Induction

/-!
# Rows that list trees

A row of numbers and operators has a value exactly if it lists an expression tree with each operator
after its operands. The tree is told by the row, since the last token says whether a tree ends with
a number or with an operator. Read from left to right, a row always lists the trees that lie on the
stack, until a literal, an operator without operands or a division by zero ends the evaluation.

* `Token.IsTerm`: the tokens of such rows;
* `ExprTree.IsReadable`, `ExprTree.DividesByZero`, `ExprTree.result`: what can go wrong in a tree,
  and what it comes to, with `ExprTree.value_eq_ok`;
* `listed`: the row of the trees on a stack, with `eq_of_listed_eq`: a row lists one stack only;
* `DividesFirst`: the first thing to go wrong in a row is a division by zero;
* `Reached`, `Reached.step`, `Reached.foldlM`: what an evaluation has come to after a row;
* `evaluatePostfix_iff_tree`: the rows that have a value, and the errors of those that list no tree.
-/

namespace FormulaBook

/-- A number or one of the four operators. -/
def Token.IsTerm (t : Token) : Prop :=
  t.kind = .number ∨ t.kind = .operator ∧ (Operator.ofText? t.text).isSome = true

instance (t : Token) : Decidable t.IsTerm := by unfold Token.IsTerm; infer_instance

/-! ### Trees and their results -/

/-- The result of an operation on doubles, whatever the divisor is. -/
def Operator.result : Operator → Float → Float → Float
  | .add, x, y => x + y
  | .sub, x, y => x - y
  | .mul, x, y => x * y
  | .div, x, y => x / y

namespace ExprTree

/-- All literals of a tree read as numbers. -/
def IsReadable : ExprTree → Prop
  | .leaf number => ∃ x, number.token.number = .ok x
  | .node left _ right => left.IsReadable ∧ right.IsReadable

/-- What a tree comes to on doubles, if its literals read as numbers. -/
def result : ExprTree → Float
  | .leaf number => number.token.number.toOption.getD 0
  | .node left sign right => sign.operator.result left.result right.result

/-- A division in a tree has a right operand that is zero. -/
def DividesByZero : ExprTree → Prop
  | .leaf _ => False
  | .node left sign right => left.DividesByZero ∨ right.DividesByZero ∨
      sign.operator = .div ∧ (right.result == 0) = true

/-- Nothing goes wrong in a tree. -/
def IsSound (t : ExprTree) : Prop := t.IsReadable ∧ ¬ t.DividesByZero

end ExprTree

theorem apply_eq_ok {op : Operator} {x y z : Float} :
    op.apply x y = .ok z ↔ ¬ (op = .div ∧ (y == 0) = true) ∧ op.result x y = z := by
  cases op with
  | add | sub | mul => simp [Operator.apply, Operator.result]
  | div =>
    simp only [Operator.apply, Operator.result]
    split <;> simp_all

/-- A tree has a value if nothing goes wrong in it, and the value is its result. -/
theorem ExprTree.value_eq_ok {t : ExprTree} {x : Float} :
    t.value = .ok x ↔ t.IsSound ∧ t.result = x := by
  induction t generalizing x with
  | leaf number =>
    simp only [value, IsSound, IsReadable, DividesByZero, result]
    cases number.token.number <;> simp [Except.toOption]
  | node left sign right ihl ihr =>
    have hbind : (node left sign right).value = .ok x ↔ ∃ y, left.value = .ok y ∧
        ∃ z, right.value = .ok z ∧ sign.operator.apply y z = .ok x := by
      rw [value]
      exact bind_eq_ok.trans (exists_congr fun y => and_congr_right fun _ => bind_eq_ok)
    rw [hbind]
    simp only [ihl, ihr, apply_eq_ok, IsSound, IsReadable, DividesByZero, result, not_or]
    constructor
    · rintro ⟨y, ⟨⟨hleft, hleft'⟩, rfl⟩, z, ⟨⟨hright, hright'⟩, rfl⟩, hdivisor, rfl⟩
      exact ⟨⟨⟨hleft, hright⟩, hleft', hright', hdivisor⟩, rfl⟩
    · rintro ⟨⟨⟨hleft, hright⟩, hleft', hright', hdivisor⟩, rfl⟩
      exact ⟨_, ⟨⟨hleft, hleft'⟩, rfl⟩, _, ⟨⟨hright, hright'⟩, rfl⟩, hdivisor, rfl⟩

/-! ### Stacks of trees -/

/-- The row of the trees on a stack, whose top comes first: the trees are listed from the bottom to
the top. -/
def listed : List ExprTree → List Token
  | [] => []
  | t :: below => listed below ++ t.postorder

section Listed

variable {row : List Token} {a : Token} {stack stack' : List ExprTree}

theorem NumberToken.eq_of_token_eq {n n' : NumberToken} (h : n.token = n'.token) : n = n' := by
  cases n
  cases n'
  cases h
  rfl

theorem OperatorToken.eq_of_token_eq {sign sign' : OperatorToken} (h : sign.token = sign'.token) :
    sign = sign' := by
  obtain ⟨token, op, hk, hop⟩ := sign
  obtain ⟨token', op', hk', hop'⟩ := sign'
  cases h
  cases hop.symm.trans hop'
  rfl

/-- The last token of a row is the top of the stack if it is a number, and otherwise it joins the
two trees below it. -/
theorem listed_eq_concat (h : listed stack = row ++ [a]) :
    (∃ number below, stack = .leaf number :: below ∧ number.token = a ∧ listed below = row) ∨
      ∃ left sign right below, stack = .node left sign right :: below ∧ sign.token = a ∧
        listed (right :: left :: below) = row := by
  match stack, h with
  | [], h => simp [listed] at h
  | .leaf number :: below, h =>
    obtain ⟨hrow, htoken⟩ := List.append_inj' h rfl
    exact .inl ⟨number, below, rfl, List.singleton_inj.1 htoken, hrow⟩
  | .node left sign right :: below, h =>
    rw [listed, ExprTree.postorder, ← List.append_assoc] at h
    obtain ⟨hrow, htoken⟩ := List.append_inj' h rfl
    refine .inr ⟨left, sign, right, below, rfl, List.singleton_inj.1 htoken, ?_⟩
    rw [listed, listed, List.append_assoc]
    exact hrow

theorem postorder_ne_nil (t : ExprTree) : t.postorder ≠ [] := by
  cases t <;> simp [ExprTree.postorder]

/-- A row that ends with a number lists a tree only if the tree is that number. -/
theorem eq_nil_of_postorder_eq_concat {t : ExprTree} (h : t.postorder = row ++ [a])
    (ha : a.kind = .number) : row = [] := by
  obtain ⟨number, below, htree, -, hrow⟩ | ⟨left, sign, right, below, htree, hsign, -⟩ :=
    @listed_eq_concat row a [t] h
  · rw [← hrow, ← (List.cons.inj htree).2]
    rfl
  · rw [← hsign, sign.isOperator] at ha
    cases ha

/-- A row lists one stack of trees only. -/
theorem eq_of_listed_eq (h : listed stack = row) (h' : listed stack' = row) : stack = stack' := by
  induction row using List.reverseRecOn generalizing stack stack' with
  | nil =>
    have empty {s : List ExprTree} (hs : listed s = []) : s = [] := by
      cases s with
      | nil => rfl
      | cons t below => simp [listed, postorder_ne_nil] at hs
    rw [empty h, empty h']
  | append_singleton row a ih =>
    obtain ⟨n, below, rfl, hn, hrow⟩ | ⟨left, sign, right, below, rfl, hsign, hrow⟩ :=
      listed_eq_concat h
    · obtain ⟨n', below', rfl, hn', hrow'⟩ | ⟨left', sign', right', below', rfl, hsign', -⟩ :=
        listed_eq_concat h'
      · rw [NumberToken.eq_of_token_eq (hn.trans hn'.symm), ih hrow hrow']
      · cases n.isNumber.symm.trans ((hn.trans hsign'.symm) ▸ sign'.isOperator)
    · obtain ⟨n', below', rfl, hn', -⟩ | ⟨left', sign', right', below', rfl, hsign', hrow'⟩ :=
        listed_eq_concat h'
      · cases n'.isNumber.symm.trans ((hn'.trans hsign.symm) ▸ sign.isOperator)
      · have hbelow := ih hrow hrow'
        simp only [List.cons.injEq] at hbelow
        obtain ⟨rfl, rfl, rfl⟩ := hbelow
        rw [OperatorToken.eq_of_token_eq (hsign.trans hsign'.symm)]

/-- The row of a stack of sound trees leaves their results. -/
theorem foldlM_listed (h : ∀ t ∈ stack, t.IsSound) (rest : List Token) :
    (listed stack ++ rest).foldlM evaluateStep [] =
      rest.foldlM evaluateStep (stack.map (·.result)) := by
  induction stack generalizing rest with
  | nil => rfl
  | cons t below ih =>
    rw [List.forall_mem_cons] at h
    rw [listed, List.append_assoc, ih h.2, foldlM_postorder, ExprTree.value_eq_ok.2 ⟨h.1, rfl⟩]
    rfl

end Listed

/-! ### What an evaluation comes to -/

/-- The first thing to go wrong in a row is a division by zero: in front of the operator the row
lists sound trees, and the top one, which is the divisor, comes to zero. -/
inductive DividesFirst (row : List Token) : Prop
  | intro (right left : ExprTree) (below : List ExprTree) (sign : OperatorToken)
      (after : List Token) (hrow : row = listed (right :: left :: below) ++ sign.token :: after)
      (hsound : ∀ t ∈ right :: left :: below, t.IsSound) (hdiv : sign.operator = .div)
      (hzero : (right.result == 0) = true)

/-- What an evaluation may have come to after a row: the stack holds the results of the sound trees
that the row lists, or something has gone wrong. -/
inductive Reached (row : List Token) : Except EvalError (List Float) → Prop
  | stack (trees : List ExprTree) (hrow : listed trees = row) (hsound : ∀ t ∈ trees, t.IsSound) :
      Reached row (.ok (trees.map (·.result)))
  | invalid (cause : Malformation) : Reached row (.error (.invalidExpression cause))
  | division (h : DividesFirst row) : Reached row (.error .divisionByZero)

section Evaluation

variable {row l : List Token} {t : Token} {values : List Float} {e : EvalError}

theorem evaluateStep_of_length_lt (hk : t.kind = .operator) (h : values.length < 2) :
    evaluateStep values t = .error (.invalidExpression .operands) := by
  match values, h with
  | [], _ | [_], _ => simp [evaluateStep, hk]

theorem DividesFirst.append (h : DividesFirst row) (l : List Token) : DividesFirst (row ++ l) := by
  obtain ⟨right, left, below, sign, after, rfl, hsound, hdiv, hzero⟩ := h
  exact ⟨right, left, below, sign, after ++ l, by rw [List.append_assoc, List.cons_append], hsound,
    hdiv, hzero⟩

namespace Reached

theorem append_error (h : Reached row (.error e)) (l : List Token) :
    Reached (row ++ l) (.error e) := by
  cases h with
  | invalid cause => exact .invalid cause
  | division h => exact .division (h.append l)

/-- A number is one more tree on the stack, and an operator joins the two trees on its top. -/
theorem step (h : Reached row (.ok values)) (ht : t.IsTerm) :
    Reached (row ++ [t]) (evaluateStep values t) := by
  obtain ⟨trees, rfl, hsound⟩ := h
  obtain hk | ⟨hk, hop⟩ := ht
  · let number : NumberToken := ⟨t, hk⟩
    have hstep := evaluateStep_number number (trees.map (·.result))
    cases hread : t.number with
    | error e =>
      rw [hread, number_eq_error hread] at hstep
      rw [hstep]
      exact .invalid .literal
    | ok x =>
      rw [hread] at hstep
      have hleaf : (ExprTree.leaf number).IsSound ∧ (ExprTree.leaf number).result = x :=
        ExprTree.value_eq_ok.1 hread
      rw [hstep, ← hleaf.2]
      exact .stack (.leaf number :: trees) rfl (List.forall_mem_cons.2 ⟨hleaf.1, hsound⟩)
  · obtain ⟨op, hop⟩ := Option.isSome_iff_exists.1 hop
    let sign : OperatorToken := ⟨t, op, hk, hop⟩
    match trees, hsound with
    | [], _ | [_], _ =>
      rw [evaluateStep_of_length_lt hk (by simp)]
      exact .invalid .operands
    | right :: left :: below, hsound =>
      have hstep := evaluateStep_operator sign left.result right.result (below.map (·.result))
      show Reached _ (evaluateStep (right.result :: left.result :: below.map (·.result)) sign.token)
      rw [hstep]
      cases happly : op.apply left.result right.result with
      | error e =>
        obtain ⟨hdiv, hzero, rfl⟩ := apply_eq_error happly
        exact .division ⟨right, left, below, sign, [], rfl, hsound, hdiv, hzero⟩
      | ok x =>
        obtain ⟨hdivisor, rfl⟩ := apply_eq_ok.1 happly
        rw [List.forall_mem_cons, List.forall_mem_cons] at hsound
        obtain ⟨hright, hleft, hbelow⟩ := hsound
        have hnode : (ExprTree.node left sign right).IsSound := by
          refine ⟨⟨hleft.1, hright.1⟩, ?_⟩
          rintro (hzero | hzero | hzero)
          · exact hleft.2 hzero
          · exact hright.2 hzero
          · exact hdivisor hzero
        refine .stack (.node left sign right :: below) ?_ (List.forall_mem_cons.2 ⟨hnode, hbelow⟩)
        simp [listed, ExprTree.postorder, sign]

/-- A row of numbers and operators carries an evaluation on. -/
theorem foldlM (h : Reached row (.ok values)) (hl : ∀ t ∈ l, t.IsTerm) :
    Reached (row ++ l) (l.foldlM evaluateStep values) := by
  induction l generalizing row values with
  | nil => rwa [List.append_nil]
  | cons t l ih =>
    rw [List.forall_mem_cons] at hl
    have hstep := h.step hl.1
    rw [List.foldlM_cons, ← List.singleton_append, ← List.append_assoc]
    cases hvalues : evaluateStep values t with
    | error e =>
      rw [hvalues] at hstep
      exact hstep.append_error l
    | ok values' =>
      rw [hvalues] at hstep
      exact ih hstep hl.2

/-- One number is left for one tree. -/
theorem exists_tree {x : Float} (h : Reached row (.ok [x])) :
    ∃ t : ExprTree, t.postorder = row ∧ t.IsSound ∧ t.result = x := by
  generalize hone : [x] = values at h
  obtain ⟨trees, rfl, hsound⟩ := h
  match trees, hone with
  | [t], hone => exact ⟨t, rfl, hsound t List.mem_cons_self, (List.singleton_inj.1 hone).symm⟩

end Reached

theorem evaluatePostfix_of_dividesFirst (h : DividesFirst l) :
    evaluatePostfix l = .error .divisionByZero := by
  obtain ⟨right, left, below, sign, after, rfl, hsound, hdiv, hzero⟩ := h
  have happly : sign.operator.apply left.result right.result = .error .divisionByZero := by
    rw [hdiv, Operator.apply, if_pos hzero]
  rw [evaluatePostfix, foldlM_listed hsound, List.map_cons, List.map_cons, List.foldlM_cons,
    evaluateStep_operator, happly]
  rfl

/-- **The postfix rows that have a value.** A row of numbers and operators has the value `x` if and
only if it lists a tree with each operator after its operands, all literals of the tree read as
numbers, no division in it is by zero, and its result is `x`. The row lists one tree at most. If it
lists none, it is refused as an invalid expression, unless a division by zero comes first. -/
theorem evaluatePostfix_iff_tree (hl : ∀ t ∈ l, t.IsTerm) :
    (∀ x, evaluatePostfix l = .ok x ↔
      ∃ t : ExprTree, t.postorder = l ∧ t.IsReadable ∧ ¬ t.DividesByZero ∧ t.result = x) ∧
    (∀ t t' : ExprTree, t.postorder = l → t'.postorder = l → t = t') ∧
    ((¬ ∃ t : ExprTree, t.postorder = l) →
      (DividesFirst l → evaluatePostfix l = .error .divisionByZero) ∧
      (¬ DividesFirst l → ∃ cause, evaluatePostfix l = .error (.invalidExpression cause))) := by
  have hstart : Reached [] (.ok []) := .stack [] rfl (by simp)
  have hreached : Reached l (l.foldlM evaluateStep []) := hstart.foldlM hl
  refine ⟨fun x => ⟨fun h => ?_, ?_⟩, fun t t' ht ht' => ?_, fun hnone =>
    ⟨evaluatePostfix_of_dividesFirst, fun hfirst => ?_⟩⟩
  · obtain ⟨values, hvalues, hvalue⟩ := bind_eq_ok.1 h
    rw [hvalues, theValue_eq_ok hvalue] at hreached
    obtain ⟨t, ht, ⟨hreadable, hdivides⟩, hresult⟩ := hreached.exists_tree
    exact ⟨t, ht, hreadable, hdivides, hresult⟩
  · rintro ⟨t, rfl, hreadable, hdivides, hresult⟩
    rw [evaluatePostfix_postorder]
    exact ExprTree.value_eq_ok.2 ⟨⟨hreadable, hdivides⟩, hresult⟩
  · exact List.singleton_inj.1 (@eq_of_listed_eq l [t] [t'] ht ht')
  · rw [evaluatePostfix]
    cases hvalues : l.foldlM evaluateStep [] with
    | error e =>
      rw [hvalues] at hreached
      cases hreached with
      | invalid cause => exact ⟨cause, rfl⟩
      | division h => exact absurd h hfirst
    | ok values =>
      rw [hvalues] at hreached
      obtain _ | ⟨x, _ | ⟨y, rest⟩⟩ := values
      · exact ⟨.operands, rfl⟩
      · obtain ⟨t, ht, -⟩ := hreached.exists_tree
        exact absurd ⟨t, ht⟩ hnone
      · exact ⟨.operands, rfl⟩

/-- The row `6 3 2 - /` lists a tree, the row `1 0 / 5` none: there a division by zero comes first,
while in `1 / 0` the first operator has too few operands. -/
theorem evaluatePostfix_iff_tree_quotients :
    let number (s : String) : Token := ⟨.number, s, none, none⟩
    let slash : Token := ⟨.operator, "/", none, none⟩
    let quotient := [number "6", number "3", number "2", ⟨.operator, "-", none, none⟩, slash]
    let divided := [number "1", number "0", slash, number "5"]
    let unordered := [number "1", slash, number "0"]
    ((∀ t ∈ quotient, t.IsTerm) ∧ ∃ t : ExprTree, t.postorder = quotient ∧ t.IsReadable ∧
      ¬ t.DividesByZero ∧ t.result = 6) ∧
    evaluatePostfix divided = .error .divisionByZero ∧
    ∃ cause, evaluatePostfix unordered = .error (.invalidExpression cause) := by
  intro number slash quotient divided unordered
  have hquotient : ∀ t ∈ quotient, t.IsTerm := by decide
  have listsNone {row : List Token} {s : String} (hrow : row ≠ []) :
      ¬ ∃ t : ExprTree, t.postorder = row ++ [number s] := fun ⟨_, ht⟩ =>
    hrow (eq_nil_of_postorder_eq_concat ht rfl)
  have hdivided : DividesFirst divided := by
    have hsound : ∀ t ∈ [ExprTree.leaf ⟨number "0", rfl⟩, .leaf ⟨number "1", rfl⟩], t.IsSound := by
      simp only [List.forall_mem_cons]
      exact ⟨⟨⟨0, by decide +kernel⟩, id⟩, ⟨⟨1, by decide +kernel⟩, id⟩, by simp⟩
    exact ⟨_, _, [], ⟨slash, .div, rfl, rfl⟩, [number "5"], rfl, hsound, rfl, by decide +kernel⟩
  have hunordered : ¬ DividesFirst unordered := fun h =>
    absurd (evaluatePostfix_of_dividesFirst h) (by decide +kernel)
  exact ⟨⟨hquotient, ((evaluatePostfix_iff_tree hquotient).1 6).1 (by decide +kernel)⟩,
    ((evaluatePostfix_iff_tree (l := divided) (by decide)).2.2
      (@listsNone [number "1", number "0", slash] "5" (by simp))).1 hdivided,
    ((evaluatePostfix_iff_tree (l := unordered) (by decide)).2.2
      (@listsNone [number "1", slash] "0" (by simp))).2 hunordered⟩

end Evaluation

end FormulaBook
