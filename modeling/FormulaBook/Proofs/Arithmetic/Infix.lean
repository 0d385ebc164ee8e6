import FormulaBook.Proofs.Arithmetic.Balance
import FormulaBook.Proofs.Arithmetic.Errors
import FormulaBook.Proofs.Arithmetic.Grammar
import FormulaBook.Proofs.Lexing.Scan
import Mathlib.Data.List.Chain

/-!
# Which rows have a value

An evaluation counts operands and never asks whether an operand or an operator must come next. That
is enough to recognise a well-formed row as long as no operand follows directly on another one:
each operator without an operand in front of it, and each parenthesis that closes on none, then
leaves one operand too few. Where operands do follow each other, they can make up for it: `()1` has
the value of `1`.

* `Token.beginsOperand`, `Token.endsOperand`, `Divided`: operands that do not follow each other;
* `Awaited`, `Awaited.afterAll`: what must come next in a well-formed row;
* `Awaited.count_afterAll`: each token of a divided row with one operand left may come;
* `Derivation.append`: a derived row goes on with an operator and a factor;
* `Begun`, `begun_step`, `begun_of_foldlM`: the derivations inside each open parenthesis;
* `exists_derivation`: a divided row that has a value is derived from the grammar;
* `infixRow`: the row that a text stands for;
* `evaluate_iff_derivation`: the values of texts.
-/

namespace FormulaBook

open Text

/-! ### Operands that follow each other -/

namespace Token

/-- Whether an operand begins with a token. -/
def beginsOperand (t : Token) : Bool := t.kind.isOperand || t.kind == .lparen

/-- Whether an operand ends with a token. -/
def endsOperand (t : Token) : Bool := t.kind.isOperand || t.kind == .rparen

end Token

/-- No operand begins directly after another one has ended. -/
def Divided (a b : Token) : Prop := a.endsOperand = true → b.beginsOperand = false

instance (a b : Token) : Decidable (Divided a b) := by unfold Divided; infer_instance

/-! ### What must come next -/

/-- What must come next in a well-formed row. -/
inductive Awaited where
  | operand
  | operator
  deriving DecidableEq

namespace Awaited

/-- How many operands have been read where an operator must come. -/
def count : Awaited → Int
  | .operand => 0
  | .operator => 1

/-- What must come after a token, if the token may come. -/
def after? (a : Awaited) (t : Token) : Option Awaited :=
  match a with
  | .operand =>
    if t.kind.isOperand then some .operator
    else if t.kind = .lparen then some .operand else none
  | .operator =>
    if t.kind = .operator then some .operand
    else if t.kind = .rparen then some .operator else none

/-- What must come after a row, if each of its tokens may come. -/
def afterAll? (a : Awaited) : List Token → Option Awaited
  | [] => some a
  | t :: l => (a.after? t).bind fun b => b.afterAll? l

/-- What must come after a token, whether the token may come or not. -/
def next (t : Token) : Awaited := if t.endsOperand then .operator else .operand

/-- A token that begins no operand where an operator must come leaves the count as it must be, if it
may come, and leaves too few operands if it may not. -/
theorem count_next {a : Awaited} {t : Token} (h : a = .operator → t.beginsOperand = false) :
    a.count + t.weight ≤ (next t).count ∧
      (a.count + t.weight = (next t).count → a.after? t = some (next t)) := by
  cases a with
  | operand =>
    cases hk : t.kind <;>
      simp [count, after?, next, Token.endsOperand, Token.weight, hk, TokenKind.isOperand]
  | operator =>
    have hbegins := h rfl
    cases hk : t.kind <;>
      simp [count, after?, next, Token.beginsOperand, Token.endsOperand, Token.weight, hk,
        TokenKind.isOperand] at hbegins ⊢

/-- In a divided row at most one operand is left, and if one is, then each token may come: a token
that may not come leaves too few operands, and no later token makes up for that. -/
theorem count_afterAll {a : Awaited} {l : List Token} (hl : l.IsChain Divided)
    (hhead : a = .operator → ∀ t ∈ l.head?, t.beginsOperand = false) :
    a.count + surplus l ≤ 1 ∧
      (a.count + surplus l = 1 → a.afterAll? l = some .operator) := by
  induction l generalizing a with
  | nil => cases a <;> simp [count, afterAll?]
  | cons t l ih =>
    rw [List.isChain_cons] at hl
    have hends : next t = .operator → t.endsOperand = true := by
      simp only [next]
      split <;> simp_all
    obtain ⟨hstep, hmay⟩ := count_next fun ha => hhead ha t rfl
    obtain ⟨hrest, hall⟩ := ih hl.2 fun h u hu => hl.1 u hu (hends h)
    rw [surplus_cons]
    refine ⟨by omega, fun hone => ?_⟩
    rw [afterAll?, hmay (by omega), Option.bind_some]
    exact hall (by omega)

end Awaited

/-! ### Derivations that go on -/

namespace Derivation

theorem isChain_divided_append {l l' : List Token} {sign : OperatorToken}
    (hl : l.IsChain Divided) (hl' : l'.IsChain Divided) :
    (l ++ sign.token :: l').IsChain Divided := by
  rw [List.isChain_append, List.isChain_cons]
  refine ⟨hl, ⟨fun t _ h => ?_, hl'⟩, ?_⟩
  · simp [Token.endsOperand, sign.isOperator, TokenKind.isOperand] at h
  · rintro a - b ⟨⟩ -
    simp [Token.beginsOperand, sign.isOperator, TokenKind.isOperand]

/-- In a derived row no operand follows directly on another one. -/
theorem isChain_divided {c : Category} (d : Derivation c) : d.tokens.IsChain Divided := by
  induction d with
  | number n => exact .singleton _
  | group p inner ih =>
    rw [tokens, List.isChain_cons, List.isChain_append]
    refine ⟨fun t _ h => ?_, ih, .singleton _, ?_⟩
    · simp [Token.endsOperand, p.opens, TokenKind.isOperand] at h
    · rintro a - b ⟨⟩ -
      simp [Token.beginsOperand, p.closes, TokenKind.isOperand]
  | factor d ih => exact ih
  | product d ih => exact ih
  | scale left sign right rank ihl ihr => exact isChain_divided_append ihl ihr
  | add left sign right rank ihl ihr => exact isChain_divided_append ihl ihr

theorem rank_eq_one {sign : OperatorToken} (h : ¬ sign.operator.rank = 2) :
    sign.operator.rank = 1 := by
  cases hop : sign.operator <;> simp_all [Operator.rank]

/-- A sum that goes on with an operator and a factor: a factor after `*` or `/` belongs to the last
product of the sum. -/
def append (d : Derivation .sum) (sign : OperatorToken) (right : Derivation .factor) :
    Derivation .sum :=
  match d with
  | .product d =>
    if h : sign.operator.rank = 2 then .product (.scale d sign right h)
    else .add (.product d) sign (.factor right) (rank_eq_one h)
  | .add left sign' d rank =>
    if h : sign.operator.rank = 2 then .add left sign' (.scale d sign right h) rank
    else .add (.add left sign' d rank) sign (.factor right) (rank_eq_one h)

theorem tokens_append (d : Derivation .sum) (sign : OperatorToken) (right : Derivation .factor) :
    (d.append sign right).tokens = d.tokens ++ sign.token :: right.tokens := by
  by_cases h : sign.operator.rank = 2
  · cases d with
    | product d => simp [append, h, tokens]
    | add left sign' d rank => simp [append, h, tokens]
  · cases d with
    | product d => simp [append, h, tokens]
    | add left sign' d rank => simp [append, h, tokens]

end Derivation

/-! ### The groups that are open -/

/-- The part of a sum in front of an operand: nothing, or a sum and an operator. -/
abbrev Pending := Option (Derivation .sum × OperatorToken)

namespace Pending

/-- The tokens of the part. -/
def tokens : Pending → List Token
  | none => []
  | some (d, sign) => d.tokens ++ [sign.token]

/-- The sum with the operand. -/
def close (right : Derivation .factor) : Pending → Derivation .sum
  | none => .product (.factor right)
  | some (d, sign) => d.append sign right

theorem tokens_close (pending : Pending) (right : Derivation .factor) :
    (pending.close right).tokens = pending.tokens ++ right.tokens := by
  match pending with
  | none => rfl
  | some (d, sign) => rw [close, Derivation.tokens_append, tokens, List.append_assoc]; rfl

end Pending

/-- A parenthesis that is open, with the part of the sum in front of it. -/
structure OpenGroup where
  pending : Pending
  opening : Token
  opens : opening.kind = .lparen

/-- The tokens in front of the innermost open parenthesis and that parenthesis, for groups of which
the innermost comes first. -/
def groupTokens : List OpenGroup → List Token
  | [] => []
  | g :: outer => groupTokens outer ++ g.pending.tokens ++ [g.opening]

/-- The row `l` is the beginning of a well-formed row: inside the innermost of the open groups it
has come to a part of a sum if an operand must come next, and to a sum if an operator must. -/
def Begun (groups : List OpenGroup) (l : List Token) : Awaited → Prop
  | .operand => ∃ pending : Pending, l = groupTokens groups ++ pending.tokens
  | .operator => ∃ d : Derivation .sum, l = groupTokens groups ++ d.tokens

/-- A token that may come carries the beginning of a well-formed row on. -/
theorem begun_step {groups : List OpenGroup} {l : List Token} {a b : Awaited} {y y' : Yard}
    {t : Token} (hbegun : Begun groups l a) (hdepth : y.openCount = groups.length)
    (hstep : y.Steps t y') (hmay : a.after? t = some b) :
    ∃ groups', Begun groups' (l ++ [t]) b ∧ y'.openCount = groups'.length := by
  have hcount := hstep.openCount_eq
  cases a with
  | operand =>
    obtain ⟨pending, rfl⟩ := hbegun
    cases hstep with
    | number hk =>
      simp [Awaited.after?, hk, TokenKind.isOperand] at hmay
      subst hmay
      refine ⟨groups, ⟨pending.close (.number ⟨t, hk⟩), ?_⟩, ?_⟩
      · rw [Pending.tokens_close, List.append_assoc]
        rfl
      · simp [Token.nesting, hk] at hcount
        omega
    | lparen hk =>
      simp [Awaited.after?, hk, TokenKind.isOperand] at hmay
      subst hmay
      refine ⟨⟨pending, t, hk⟩ :: groups, ⟨none, ?_⟩, ?_⟩
      · simp [groupTokens, Pending.tokens]
      · simp [Token.nesting, hk] at hcount
        rw [List.length_cons]
        omega
    | operator sign => simp [Awaited.after?, sign.isOperator, TokenKind.isOperand] at hmay
    | rparen hk => simp [Awaited.after?, hk, TokenKind.isOperand] at hmay
  | operator =>
    obtain ⟨d, rfl⟩ := hbegun
    cases hstep with
    | number hk => simp [Awaited.after?, hk] at hmay
    | lparen hk => simp [Awaited.after?, hk] at hmay
    | operator sign =>
      simp [Awaited.after?, sign.isOperator] at hmay
      subst hmay
      refine ⟨groups, ⟨some (d, sign), ?_⟩, ?_⟩
      · rw [Pending.tokens, List.append_assoc]
      · simp [Token.nesting, sign.isOperator] at hcount
        omega
    | rparen hk hp hw =>
      simp [Awaited.after?, hk] at hmay
      subst hmay
      simp [Token.nesting, hk] at hcount
      -- A group is open, since the count of open parentheses goes down.
      cases groups with
      | nil =>
        rw [List.length_nil] at hdepth
        omega
      | cons g outer =>
        let group : Derivation .factor := .group ⟨g.opening, t, g.opens, hk⟩ d
        refine ⟨outer, ⟨g.pending.close group, ?_⟩, ?_⟩
        · rw [Pending.tokens_close]
          simp [groupTokens, group, Derivation.tokens]
        · rw [List.length_cons] at hdepth
          omega

/-- A row of tokens that may come carries the beginning of a well-formed row on. -/
theorem begun_of_foldlM {groups : List OpenGroup} {l l' : List Token} {a b : Awaited}
    {y y' : Yard} (hbegun : Begun groups l a) (hdepth : y.openCount = groups.length)
    (hread : l'.foldlM Yard.step y = .ok y') (hmay : a.afterAll? l' = some b) :
    ∃ groups', Begun groups' (l ++ l') b ∧ y'.openCount = groups'.length := by
  induction l' generalizing groups l a y with
  | nil =>
    cases hread
    cases hmay
    exact ⟨groups, by rwa [List.append_nil], hdepth⟩
  | cons t l' ih =>
    rw [List.foldlM_cons] at hread
    obtain ⟨z, hz, hread⟩ := bind_eq_ok.1 hread
    obtain ⟨c, hc, hmay⟩ := Option.bind_eq_some_iff.1 hmay
    obtain ⟨groups', hbegun', hdepth'⟩ := begun_step hbegun hdepth (Yard.steps_of_step hz) hc
    have hrest := ih hbegun' hdepth' hread hmay
    rwa [List.append_assoc, List.singleton_append] at hrest

/-- A divided row that has a value is derived from the grammar. -/
theorem exists_derivation {l : List Token} (hl : l.IsChain Divided) {x : Float}
    (h : (toPostfix l).bind evaluatePostfix = .ok x) : ∃ d : Derivation .sum, d.tokens = l := by
  obtain ⟨row, hrow, hx⟩ := bind_eq_ok.1 h
  have hone : surplus l = 1 := (surplus_toPostfix hrow).symm.trans (surplus_of_evaluatePostfix hx)
  have hall : Awaited.operand.afterAll? l = some .operator := by
    refine (Awaited.count_afterAll hl fun h => by cases h).2 ?_
    rw [hone]
    rfl
  rw [toPostfix] at hrow
  obtain ⟨y, hread, hfinish⟩ := bind_eq_ok.1 hrow
  have hbegun : Begun [] [] .operand := ⟨none, rfl⟩
  obtain ⟨groups, ⟨d, hd⟩, hdepth⟩ := begun_of_foldlM hbegun rfl hread hall
  -- The row is finished, so no group is open.
  rw [(Yard.of_finish hfinish).1] at hdepth
  obtain rfl := List.length_eq_zero_iff.1 hdepth.symm
  exact ⟨d, by simpa [groupTokens] using hd.symm⟩

/-! ### Texts without names -/

/-- The row that a text without names stands for: its blanks are removed, and neighbouring literals
are joined. -/
def infixRow (text : String) : Except EvalError (List Token) :=
  (tokenize (String.ofList (text.toList.filter (!isBlank ·)))).map mergeLiterals

section Texts

variable {text : String}

theorem Derivation.kind_of_mem {c : Category} (d : Derivation c) :
    ∀ t ∈ d.tokens, t.kind ≠ .identifier ∧ t.kind ≠ .placeholder := by
  induction d with
  | number n => simp [tokens, n.isNumber]
  | group p inner ih =>
    simp only [tokens, List.forall_mem_cons, List.forall_mem_append]
    simpa [p.opens, p.closes] using ih
  | factor d ih => exact ih
  | product d ih => exact ih
  | scale left sign right rank ihl ihr | add left sign right rank ihl ihr =>
    simp only [tokens, List.forall_mem_cons, List.forall_mem_append]
    exact ⟨ihl, by simp [sign.isOperator], ihr⟩

/-- Literals that are joined are still numbers. -/
theorem exists_kind_eq_of_mem {t : Token} {l : List Token} (h : t ∈ l) :
    ∃ u ∈ mergeLiterals l, u.kind = t.kind := by
  cases l with
  | nil => cases h
  | cons a l =>
    show ∃ u ∈ a.mergeAfter l, u.kind = t.kind
    induction l generalizing a t with
    | nil =>
      rw [List.mem_singleton] at h
      exact ⟨a, by simp [Token.mergeAfter], by rw [h]⟩
    | cons b rest ih =>
      rw [Token.mergeAfter]
      split
      · rename_i hboth
        have hkinds : a.kind = .number ∧ b.kind = .number := by
          simp only [Token.isLiteral, Bool.and_eq_true, beq_iff_eq] at hboth
          exact ⟨hboth.1.1, hboth.2.1⟩
        rcases List.mem_cons.1 h with heq | h
        · obtain ⟨u, hu, hk⟩ := ih (a.join b) List.mem_cons_self
          exact ⟨u, hu, by rw [hk, heq]; rfl⟩
        · rcases List.mem_cons.1 h with heq | h
          · obtain ⟨u, hu, hk⟩ := ih (a.join b) List.mem_cons_self
            refine ⟨u, hu, ?_⟩
            rw [hk, heq, hkinds.2]
            exact hkinds.1
          · exact ih (a.join b) (List.mem_cons_of_mem _ h)
      · rcases List.mem_cons.1 h with heq | h
        · exact ⟨a, List.mem_cons_self, by rw [heq]⟩
        · obtain ⟨u, hu, hk⟩ := ih b h
          exact ⟨u, List.mem_cons_of_mem a hu, hk⟩

/-- A lexeme that is neither blank nor a name nor a placeholder has arithmetic characters. -/
theorem Piece.isArithmeticChar {p : Piece} {kind : TokenKind} (hk : p.kind = some kind)
    (hname : kind ≠ .identifier ∧ kind ≠ .placeholder) :
    ∀ c ∈ p.chars, isArithmeticChar c = true := by
  obtain ⟨k, chars, hp⟩ := p
  cases hk
  cases hp with
  | number _ hl =>
    intro c hc
    simp [FormulaBook.isArithmeticChar, hl c hc]
  | operator hop =>
    intro c hc
    rw [List.mem_singleton.1 hc]
    simp [FormulaBook.isArithmeticChar, hop]
  | lparen | rparen =>
    intro c hc
    rw [List.mem_singleton.1 hc]
    rfl
  | identifier => exact absurd rfl hname.1
  | placeholder => exact absurd rfl hname.2

/-- A text that stands for a row without names has arithmetic characters only. -/
theorem isArithmeticChar_of_infixRow {row : List Token} (h : infixRow text = .ok row)
    (hrow : ∀ t ∈ row, t.kind ≠ .identifier ∧ t.kind ≠ .placeholder) :
    ∀ c ∈ text.toList.filter (!isBlank ·), isArithmeticChar c = true := by
  obtain ⟨tokens, htokens, rfl⟩ := map_eq_ok.1 h
  obtain ⟨pieces, hspell, -, rfl⟩ := tokenize_eq_ok.1 htokens
  rw [String.toList_ofList] at hspell
  intro c hc
  rw [← hspell, spell, List.mem_flatMap] at hc
  obtain ⟨p, hp, hc⟩ := hc
  cases hk : p.kind with
  | none =>
    -- No blank is left.
    have hmem : c ∈ text.toList.filter (!isBlank ·) := by
      rw [← hspell]
      exact List.mem_flatMap.2 ⟨p, hp, hc⟩
    have hblank := isBlank_of_isLayout (p.isLayout_of_kind_eq_none hk c hc)
    simp [hblank] at hmem
  | some kind =>
    obtain ⟨t, ht, htk⟩ := exists_mem_tokensFrom hp hk 0
    obtain ⟨u, hu, huk⟩ := exists_kind_eq_of_mem ht
    rw [htk] at huk
    exact p.isArithmeticChar hk (huk ▸ hrow u hu) c hc

theorem evaluate_of_infixRow {row : List Token} (h : infixRow text = .ok row)
    (harith : ∀ c ∈ text.toList.filter (!isBlank ·), isArithmeticChar c = true) :
    evaluate text = (toPostfix row).bind evaluatePostfix := by
  obtain ⟨tokens, htokens, rfl⟩ := map_eq_ok.1 h
  rw [evaluate_of_forall harith, htokens]
  rfl

theorem infixRow_of_evaluate {x : Float} (h : evaluate text = .ok x) :
    ∃ row, infixRow text = .ok row ∧ (toPostfix row).bind evaluatePostfix = .ok x := by
  simp only [evaluate] at h
  split at h
  · cases h
  · obtain ⟨tokens, htokens, hx⟩ := bind_eq_ok.1 h
    exact ⟨mergeLiterals tokens, by rw [infixRow, htokens]; rfl, hx⟩

theorem ofText_of_evaluate {e : EvalError} (h : evaluate text = .error e) : e.OfText := by
  simp only [evaluate] at h
  split at h
  · cases h
    trivial
  · obtain htokens | ⟨tokens, htokens, he⟩ := bind_eq_error.1 h
    · exact ofText_of_tokenize htokens
    · exact ofText_of_evaluateTokens (ranked_of_tokenize htokens) he

/-- **The values of texts.** A text has a value, and no operand in its row follows directly on
another one, if and only if the row is derived from the grammar and its tree has that value. A text
without a value has an error of its own. -/
theorem evaluate_iff_derivation (text : String) :
    (∀ x, (evaluate text = .ok x ∧ ∃ row, infixRow text = .ok row ∧ row.IsChain Divided) ↔
      ∃ d : Derivation .sum, infixRow text = .ok d.tokens ∧ d.tree.value = .ok x) ∧
    ((∃ x, evaluate text = .ok x) ∨ ∃ e, evaluate text = .error e ∧ e.OfText) := by
  refine ⟨fun x => ⟨?_, ?_⟩, ?_⟩
  · rintro ⟨h, row, hrow, hdivided⟩
    obtain ⟨row', hrow', hx⟩ := infixRow_of_evaluate h
    obtain rfl := Except.ok.inj (hrow.symm.trans hrow')
    obtain ⟨d, rfl⟩ := exists_derivation hdivided hx
    refine ⟨d, hrow, ?_⟩
    rw [toPostfix_tokens] at hx
    exact (evaluatePostfix_postorder d.tree).symm.trans hx
  · rintro ⟨d, hrow, hx⟩
    refine ⟨?_, d.tokens, hrow, d.isChain_divided⟩
    rw [evaluate_of_infixRow hrow (isArithmeticChar_of_infixRow hrow d.kind_of_mem),
      toPostfix_tokens]
    exact (evaluatePostfix_postorder d.tree).trans hx
  · cases h : evaluate text with
    | ok x => exact Or.inl ⟨x, rfl⟩
    | error e => exact Or.inr ⟨e, rfl, ofText_of_evaluate h⟩

end Texts

/-- A number that follows on an empty group is counted as the operand that the group lacks. -/
theorem evaluate_empty_group :
    evaluate "()1" = .ok 1 ∧ ¬ ∃ d : Derivation .sum, infixRow "()1" = .ok d.tokens := by
  refine ⟨by decide +kernel, ?_⟩
  rintro ⟨d, h⟩
  have hrow : (infixRow "()1").toOption.all (fun row => decide (row.IsChain Divided)) = false := by
    decide +kernel
  rw [h] at hrow
  simp [Except.toOption, d.isChain_divided] at hrow

end FormulaBook
