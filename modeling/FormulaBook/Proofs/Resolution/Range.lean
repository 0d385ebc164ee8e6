import FormulaBook.Proofs.Arithmetic.Range
import FormulaBook.Proofs.Lexing.Binding
import FormulaBook.Proofs.Resolution.Totality

/-!
# Values that are not finite

A constant is a finite number or has an error, but the value of an expression is not looked at. A
value that is not finite has an origin: a dynamic variable whose names stand for finite numbers and
whose expression makes one of them that is not. What refers to it may be not finite either, although
no expression after the first one leaves the range by itself. A formula on finite values is such an
origin itself.

* `Overflows`: the expression of a dynamic variable leaves the range of finite numbers;
* `HasValue.exists_overflows`: the origin of a value that is not finite;
* `leavesRange_of_execute`: a formula on finite values;
* `isFinite_or_overflows`: both, for what is recorded and what is executed.
-/

namespace FormulaBook

open Relation

/-- The expression of a dynamic variable leaves the range of finite numbers, although every name in
it stands for a finite number. -/
def Overflows (vars : List Variable) (name : String) : Prop :=
  ∃ v tokens, ∃ val : String → Float, inForce vars name = some v ∧ v.kind.parse = .ok .dynamic ∧
    tokenize v.expression = .ok tokens ∧
    (∀ t ∈ tokens, t.kind = .identifier →
      HasValue vars t.text (val t.text) ∧ (val t.text).isFinite = true) ∧
    LeavesRange (tokens.map (·.valued val))

theorem Token.isFinite_of_value_eq_none {t : Token} (h : t.value = none) : t.IsFinite :=
  fun x hx => by cases h.symm.trans hx

theorem Token.isFinite_ofValue {x : Float} (hx : x.isFinite = true) (position : Option Int) :
    (Token.ofValue x position).IsFinite :=
  fun y hy => by
    cases hy
    exact hx

/-! ### Variables -/

section Variables

variable {vars : List Variable} {name : String} {x : Float}

/-- A value that is not finite has an origin, which is reached by references. -/
theorem HasValue.exists_overflows (h : HasValue vars name x) (hx : x.isFinite = false) :
    ∃ origin, ReflTransGen (Refers vars) name origin ∧ Overflows vars origin := by
  induction h with
  | constant hdef hkind hread hfinite => cases hx.symm.trans hfinite
  | @dynamic name v tokens val x hdef hkind htokens hplain hnames heval ih =>
    by_cases hall : ∀ t ∈ tokens, t.kind = .identifier → (val t.text).isFinite = true
    · have hrow : ∀ t ∈ tokens.map (·.valued val), t.IsFinite := by
        refine List.forall_mem_map.2 fun t ht => ?_
        unfold Token.valued
        split
        · rename_i hk
          exact Token.isFinite_ofValue (hall t ht hk) t.position
        · exact Token.isFinite_of_value_eq_none (value_of_tokenize htokens t ht)
      exact ⟨name, .refl, v, tokens, val, hdef, hkind, htokens,
        fun t ht hk => ⟨hnames t ht hk, hall t ht hk⟩, leavesRange_of_evaluateTokens hrow heval hx⟩
    · -- A name in the expression is not finite already.
      push Not at hall
      obtain ⟨t, ht, hk, hinfinite⟩ := hall
      obtain ⟨origin, hreach, horigin⟩ := ih t ht hk (by simpa using hinfinite)
      have hstep : Refers vars name t.text := ⟨v, tokens, hdef, hkind, htokens, t, ht, hk, rfl⟩
      exact ⟨origin, .head hstep hreach, horigin⟩

theorem hasValue_of_mem_values {depth : Nat} (h : (name, x) ∈ (resolveWithin depth vars).values) :
    HasValue vars name x := by
  obtain hplain | ⟨htooDeep, -⟩ := mem_entries (mem_values.1 h)
  · exact hasValue_of_plainSearch [] hplain.symm
  · cases htooDeep

end Variables

/-! ### Formulas -/

section Formulas

variable {values : List (String × Float)} {errors : List (String × String)} {x : Float}

theorem value_of_bindContext {context : Context} {tokens row : List Token}
    (htokens : ∀ t ∈ tokens, t.value = none) (h : bindContext context tokens = .ok row) :
    ∀ t ∈ row, t.value = none := by
  obtain rfl := eq_map_of_bindContext h
  refine List.forall_mem_map.2 fun t ht => ?_
  unfold Token.bound
  split
  · rfl
  · exact htokens t ht

theorem isFinite_of_bindVariables {tokens row : List Token}
    (htokens : ∀ t ∈ tokens, t.value = none) (hvalues : ∀ p ∈ values, p.2.isFinite = true)
    (h : bindVariables values errors tokens = .ok row) : ∀ t ∈ row, t.IsFinite := by
  refine forall_mem_of_mapM (fun t ht u hu => ?_) h
  split at hu
  · unfold bindName at hu
    split at hu
    · cases hu
    · cases hu
    · rename_i y _ hlookup
      cases hu
      exact Token.isFinite_ofValue (hvalues _ (mem_of_lookup hlookup)) t.position
  · cases hu
    exact Token.isFinite_of_value_eq_none (htokens t ht)

/-- A formula on finite values whose own value is not finite leaves the range, once its placeholders
and names are bound. -/
theorem leavesRange_of_execute {expression : String} {context : Context}
    (hvalues : ∀ p ∈ values, p.2.isFinite = true)
    (h : execute expression context values errors = .ok x) (hx : x.isFinite = false) :
    ∃ tokens bound row, tokenize expression = .ok tokens ∧ bindContext context tokens = .ok bound ∧
      bindVariables values errors bound = .ok row ∧ LeavesRange row := by
  obtain ⟨tokens, htokens, h⟩ := bind_eq_ok.1 h
  obtain ⟨bound, hbound, h⟩ := bind_eq_ok.1 h
  obtain ⟨row, hrow, heval⟩ := bind_eq_ok.1 h
  have hliterals := value_of_bindContext (value_of_tokenize htokens) hbound
  have hfinite := isFinite_of_bindVariables hliterals hvalues hrow
  exact ⟨tokens, bound, row, htokens, hbound, hrow, leavesRange_of_evaluateTokens hfinite heval hx⟩

end Formulas

/-! ### What is recorded and what is executed -/

/-- **Where values that are not finite come from.** The recorded value of a name is finite, as that
of a constant always is, or some dynamic variable that is reached from the name by references leaves
the range of finite numbers although every name in its expression is finite. The value of a formula
on finite values is finite, or its own expression leaves the range. -/
theorem isFinite_or_overflows (vars : List Variable) (depth : Nat) (expression : String)
    (context : Context) (values : List (String × Float)) (errors : List (String × String)) :
    (∀ name x, (name, x) ∈ (resolveWithin depth vars).values →
      (x.isFinite = true ∨
        ∃ origin, ReflTransGen (Refers vars) name origin ∧ Overflows vars origin) ∧
      ∀ v, inForce vars name = some v → v.kind.parse = .ok .constant → x.isFinite = true) ∧
    ((∀ p ∈ values, p.2.isFinite = true) →
      ∀ x, execute expression context values errors = .ok x → x.isFinite = true ∨
        ∃ tokens bound row, tokenize expression = .ok tokens ∧
          bindContext context tokens = .ok bound ∧ bindVariables values errors bound = .ok row ∧
            LeavesRange row) := by
  refine ⟨fun name x hmem => ?_, fun hvalues x h => ?_⟩
  · have hvalue := hasValue_of_mem_values hmem
    refine ⟨?_, fun v hdef hkind => ?_⟩
    · cases hx : x.isFinite with
      | true => exact .inl rfl
      | false => exact .inr (hvalue.exists_overflows hx)
    · cases hvalue with
      | constant _ _ _ hfinite => exact hfinite
      | dynamic hdef' hkind' =>
        cases hdef.symm.trans hdef'
        cases hkind.symm.trans hkind'
  · cases hx : x.isFinite with
    | true => exact .inl rfl
    | false => exact .inr (leavesRange_of_execute hvalues h hx)

/-- A constant, its square, which is too large, and two variables that refer to the square. -/
def vast : List Variable :=
  [⟨"C", .known .constant, "1e308"⟩, ⟨"S", .known .dynamic, "C * C"⟩,
    ⟨"Q", .known .dynamic, "C / S"⟩, ⟨"D", .known .dynamic, "S - S"⟩]

/-- The difference has no finite value, so the range is left at it or at what it refers to. A
formula leaves it with a literal and the constant. -/
theorem isFinite_or_overflows_vast :
    (∃ origin, ReflTransGen (Refers vast) "D" origin ∧ Overflows vast origin) ∧
    (∀ p ∈ [("C", (1e308 : Float))], p.2.isFinite = true) ∧
    ∃ tokens bound row, tokenize "\x7b\x7b#N\x7d\x7d * C" = .ok tokens ∧
      bindContext [("N", "100")] tokens = .ok bound ∧
      bindVariables [("C", 1e308)] [] bound = .ok row ∧ LeavesRange row := by
  have hfinite : ∀ p ∈ [("C", (1e308 : Float))], p.2.isFinite = true := by decide +kernel
  obtain ⟨hvars, hformula⟩ := isFinite_or_overflows vast chainLimit "\x7b\x7b#N\x7d\x7d * C"
    [("N", "100")] [("C", 1e308)] []
  refine ⟨?_, hfinite, ?_⟩
  · have hvalue : (resolve vast).values.any (fun p => p.1 == "D" && !p.2.isFinite) = true := by
      decide +kernel
    obtain ⟨⟨name, x⟩, hmem, hp⟩ := List.any_eq_true.1 hvalue
    simp only [Bool.and_eq_true, beq_iff_eq, Bool.not_eq_true'] at hp
    obtain ⟨rfl, hx⟩ := hp
    obtain hfinite | horigin := (hvars "D" x hmem).1
    · cases hx.symm.trans hfinite
    · exact horigin
  · have hexecute : (execute "\x7b\x7b#N\x7d\x7d * C" [("N", "100")] [("C", 1e308)] []).toOption.any
        (!·.isFinite) = true := by decide +kernel
    obtain ⟨x, hx, hinfinite⟩ := (Option.any_eq_true _ _).1 hexecute
    obtain hfinite' | hleaves := hformula hfinite x (mem_toOption.1 hx)
    · simp [hfinite'] at hinfinite
    · exact hleaves

end FormulaBook
