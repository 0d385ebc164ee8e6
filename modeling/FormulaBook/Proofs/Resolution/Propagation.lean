import FormulaBook.Proofs.Resolution.Blame
import FormulaBook.Proofs.Resolution.Locality

/-!
# How errors are passed on

The entry of a dynamic variable follows from the entries of the names in its expression. The first
token that cannot be replaced decides: a placeholder and a missing name are refused, and a name with
an error hands on that very error, unless it leads back to the variable. If all tokens can be
replaced, the entry is the outcome of the expression on the recorded values.

* `Token.isBlocked`: a token that cannot be replaced, as the entries of a list tell;
* `isBlocked_eq_false`, `stopsAt_of_find?`: such a token and the values that the definitions give;
* `lookup_of_blocked`: the entry of a variable with such a token;
* `lookup_of_not_blocked`: the entry of a variable without one;
* `lookup_propagates`: both together.
-/

namespace FormulaBook

open Relation

/-- Whether a token cannot be replaced: it is a placeholder, a name without a definition, or a name
that has an error. -/
def Token.isBlocked (vars : List Variable) (r : Resolution) (t : Token) : Bool :=
  t.kind == .placeholder ||
    t.kind == .identifier && ((inForce vars t.text).isNone || (r.errors.lookup t.text).isSome)

section Recorded

variable {vars : List Variable} {depth : Nat} {name : String} {v : Variable} {tokens : List Token}
  {t : Token}

theorem lookup_errors_eq_none (hcomplete : (resolveWithin depth vars).Complete)
    (hdef : (inForce vars name).isSome = true) :
    (resolveWithin depth vars).errors.lookup name = none ↔ ∃ x, HasValue vars name x := by
  rw [lookup_errors (entries_eq hcomplete), if_pos (mem_names_iff_inForce.2 hdef)]
  simp only [← plainSearch_nil_eq_ok]
  cases plainSearch vars [] name <;> simp [message?]

/-- The entries tell of each token whether it can be replaced. -/
theorem isBlocked_eq_false (hcomplete : (resolveWithin depth vars).Complete) :
    t.isBlocked vars (resolveWithin depth vars) = false ↔ t.Replaceable vars := by
  by_cases hk : t.kind = .identifier
  · cases hdef : inForce vars t.text with
    | none =>
      have hnone : ∀ x, ¬ HasValue vars t.text x := fun x hx => by
        simpa [hdef] using hx.isSome_inForce
      simp [Token.isBlocked, Token.Replaceable, hk, hdef, hnone]
    | some w =>
      have hsome : (inForce vars t.text).isSome = true := by
        rw [hdef]
        rfl
      have hvalue := lookup_errors_eq_none hcomplete hsome
      simp [Token.isBlocked, Token.Replaceable, hk, hdef, hvalue]
  · simp [Token.isBlocked, Token.Replaceable, hk]

section Dynamic

variable (hcomplete : (resolveWithin depth vars).Complete) (hdef : inForce vars name = some v)
  (hkind : v.kind.parse = .ok .dynamic) (htokens : tokenize v.expression = .ok tokens)
include hcomplete hdef hkind htokens

theorem stopsAt_of_find? (h : tokens.find? (·.isBlocked vars (resolveWithin depth vars)) = some t) :
    StopsAt vars (·.Replaceable vars) name t := by
  obtain ⟨-, before, after, rfl, hbefore⟩ := List.find?_eq_some_iff_append.1 h
  refine ⟨v, before, after, hdef, hkind, htokens, fun u hu => ?_⟩
  exact (isBlocked_eq_false hcomplete).1 (by simpa using hbefore u hu)

/-- The entry of a variable is the error with which its first blocked token cannot be replaced. -/
theorem lookup_of_blocked
    (h : tokens.find? (·.isBlocked vars (resolveWithin depth vars)) = some t) {e : EvalError}
    (he : replaceName vars name (plainSearch vars [name]) t = .error e) :
    (resolveWithin depth vars).entries.lookup name = some (.error e) ∧
      (resolveWithin depth vars).errors.lookup name = some e.message := by
  have hplain : plainSearch vars [] name = .error e :=
    plainSearch_of_stopsAt (Entered.nil vars name) List.not_mem_nil
      (stopsAt_of_find? hcomplete hdef hkind htokens h) he
  exact lookup_of_plainSearch_error hcomplete (by rw [hdef]; rfl) hplain

/-- A blocked name that does not lead back to the variable hands on its own entry. -/
theorem lookup_of_blocked_name
    (h : tokens.find? (·.isBlocked vars (resolveWithin depth vars)) = some t)
    (hk : t.kind = .identifier) (hsome : (inForce vars t.text).isSome = true)
    (hback : ¬ ReflTransGen (Refers vars) t.text name) :
    ∃ e, (resolveWithin depth vars).entries.lookup t.text = some (.error e) ∧
      (resolveWithin depth vars).entries.lookup name = some (.error e) ∧
      (resolveWithin depth vars).errors.lookup t.text = some e.message ∧
      (resolveWithin depth vars).errors.lookup name = some e.message := by
  have hvalue : ¬ t.Replaceable vars := fun hr => by
    have hblocked := List.find?_some h
    simp [(isBlocked_eq_false hcomplete).2 hr] at hblocked
  have hpath : plainSearch vars ([name] ++ []) t.text = plainSearch vars [] t.text :=
    plainSearch_congr (fun _ _ => rfl) (by simpa using hback)
  rw [List.append_nil] at hpath
  cases he : plainSearch vars [] t.text with
  | ok x =>
    exact absurd ⟨by simp [hk], fun _ => ⟨x, hasValue_of_plainSearch [] he⟩⟩ hvalue
  | error e =>
    have hreplace : replaceName vars name (plainSearch vars [name]) t = .error e := by
      simp [replaceName, hk, Option.isNone_eq_false_iff.2 hsome, hpath, he, Except.map]
    obtain ⟨hentry, herror⟩ := lookup_of_blocked hcomplete hdef hkind htokens h hreplace
    obtain ⟨hentry', herror'⟩ := lookup_of_plainSearch_error hcomplete hsome he
    exact ⟨e, hentry', hentry, herror', herror⟩

/-- The entry of a variable without a blocked token is the outcome of its expression on the recorded
values. -/
theorem lookup_of_not_blocked
    (h : tokens.find? (·.isBlocked vars (resolveWithin depth vars)) = none) :
    ∃ val : String → Float,
      (∀ t ∈ tokens, t.kind = .identifier →
        (resolveWithin depth vars).values.lookup t.text = some (val t.text)) ∧
      (resolveWithin depth vars).entries.lookup name =
        some (evaluateTokens (tokens.map (·.valued val))) := by
  have hall : ∀ t ∈ tokens, t.Replaceable vars := fun t ht =>
    (isBlocked_eq_false hcomplete).1 (by simpa using List.find?_eq_none.1 h t ht)
  have hvalue : ∀ t ∈ tokens, t.kind = .identifier →
      HasValue vars t.text (found (plainSearch vars []) t.text) := fun t ht hk => by
    obtain ⟨x, hx⟩ := (hall t ht).2 hk
    exact plainSearch_nil_eq_ok.1 (found_eq (plainSearch_nil_eq_ok.2 hx))
  refine ⟨found (plainSearch vars []), fun t ht hk => ?_, ?_⟩
  · have hname := mem_names_iff_inForce.2 (hvalue t ht hk).isSome_inForce
    rw [lookup_values (entries_eq hcomplete), if_pos hname,
      plainSearch_nil_eq_ok.2 (hvalue t ht hk)]
    rfl
  · have hname : name ∈ (Definitions.ofList vars).names := by
      rw [mem_names_iff_inForce, hdef]
      rfl
    rw [lookup_entries (entries_eq hcomplete), if_pos hname,
      plainSearch_of_parse List.not_mem_nil hdef hkind]
    congr 1
    -- A name has the same value on the path from the variable as on the empty path.
    refine plainCompute_dynamic htokens (fun t ht => (hall t ht).1) fun t ht hk => ?_
    have hentered : Entered vars t.text ([] ++ [name]).reverse :=
      (Entered.nil vars name).concat List.not_mem_nil
        ⟨v, tokens, hdef, hkind, htokens, t, ht, hk, rfl⟩
    exact ⟨(hvalue t ht hk).isSome_inForce, (plainSearch_eq_ok hentered).2 (hvalue t ht hk)⟩

end Dynamic

/-- **The first token that cannot be replaced decides the entry of a dynamic variable.** A
placeholder is refused and a missing name is missed. A name that has an error hands it on as it is,
unless the variable is reached from it. If there is no such token, the entry is the outcome of the
expression in which each name stands for its recorded value. -/
theorem lookup_propagates (hcomplete : (resolveWithin depth vars).Complete)
    (hdef : inForce vars name = some v) (hkind : v.kind.parse = .ok .dynamic)
    (htokens : tokenize v.expression = .ok tokens) :
    let r := resolveWithin depth vars
    (∀ t, tokens.find? (·.isBlocked vars r) = some t →
      (t.kind = .placeholder →
        r.errors.lookup name = some "Expression contains invalid characters.") ∧
      (t.kind = .identifier → inForce vars t.text = none → r.errors.lookup name =
        some ("Unknown variable \"" ++ t.text ++ "\" in expression of \"" ++ name ++ "\".")) ∧
      (t.kind = .identifier → (inForce vars t.text).isSome = true →
        ¬ ReflTransGen (Refers vars) t.text name →
        ∃ e, r.entries.lookup t.text = some (.error e) ∧ r.entries.lookup name = some (.error e) ∧
          r.errors.lookup t.text = some e.message ∧ r.errors.lookup name = some e.message)) ∧
    (tokens.find? (·.isBlocked vars r) = none → ∃ val : String → Float,
      (∀ t ∈ tokens, t.kind = .identifier → r.values.lookup t.text = some (val t.text)) ∧
      r.entries.lookup name = some (evaluateTokens (tokens.map (·.valued val)))) := by
  intro r
  refine ⟨fun t ht => ⟨fun hk => ?_, fun hk hnone => ?_, fun hk hsome hback => ?_⟩,
    lookup_of_not_blocked hcomplete hdef hkind htokens⟩
  · have he : replaceName vars name (plainSearch vars [name]) t =
        .error (.invalidCharacter t.position) := by
      rw [replaceName, hk]
    exact (lookup_of_blocked hcomplete hdef hkind htokens ht he).2
  · have he : replaceName vars name (plainSearch vars [name]) t =
        .error (.unknownVariable t.text (some name)) := by
      simp [replaceName, hk, hnone]
    exact (lookup_of_blocked hcomplete hdef hkind htokens ht he).2
  · exact lookup_of_blocked_name hcomplete hdef hkind htokens ht hk hsome hback

/-- A list in which one expression leads to a division by zero and to a cycle. -/
def ledger : List Variable :=
  [⟨"TOTAL", .known .dynamic, "BASE + RATE * LOOP"⟩, ⟨"BASE", .known .constant, "12"⟩,
    ⟨"RATE", .text " dynamic ", "BASE / (BASE - 12)"⟩, ⟨"LOOP", .known .dynamic, "LOOP + RATE"⟩]

/-- An error that is handed on from the second name of an expression, before the third one, which
has another error. -/
theorem lookup_propagates_ledger : (resolve ledger).Complete ∧
    inForce ledger "TOTAL" = some ⟨"TOTAL", .known .dynamic, "BASE + RATE * LOOP"⟩ ∧
    (∃ tokens t, tokenize "BASE + RATE * LOOP" = .ok tokens ∧
      tokens.find? (·.isBlocked ledger (resolve ledger)) = some t ∧
      t.kind = .identifier ∧ t.text = "RATE") ∧
    (inForce ledger "RATE").isSome = true ∧ ¬ ReflTransGen (Refers ledger) "RATE" "TOTAL" ∧
    (resolve ledger).errors.lookup "RATE" = some "Division by zero." ∧
    (resolve ledger).errors.lookup "TOTAL" = some "Division by zero." := by
  have hcomplete : (resolve ledger).Complete := by decide +kernel
  have hdef : inForce ledger "TOTAL" =
      some ⟨"TOTAL", .known .dynamic, "BASE + RATE * LOOP"⟩ := by decide
  have hsome : (inForce ledger "RATE").isSome = true := by decide
  have hclosed : ∀ a ∈ ["RATE", "BASE"], ∀ b ∈ dependenciesOf ledger a, b ∈ ["RATE", "BASE"] := by
    decide +kernel
  have hback : ¬ ReflTransGen (Refers ledger) "RATE" "TOTAL" := fun h =>
    absurd (mem_of_reflTransGen hclosed (by decide)
      (ReflTransGen.mono (fun _ _ => Refers.dependsOn) _ _ h)) (by decide)
  have hfirst : ((tokenize "BASE + RATE * LOOP").toOption.bind fun tokens =>
      (tokens.find? (·.isBlocked ledger (resolve ledger))).map fun t => (t.kind, t.text)) =
      some (.identifier, "RATE") := by decide +kernel
  obtain ⟨tokens, htokens, hfirst⟩ := Option.bind_eq_some_iff.1 hfirst
  obtain ⟨t, ht, hkt⟩ := Option.map_eq_some_iff.1 hfirst
  obtain ⟨hk, htext⟩ := Prod.mk.inj hkt
  have htokens : tokenize "BASE + RATE * LOOP" = .ok tokens := mem_toOption.1 htokens
  have hrate : (resolve ledger).errors.lookup "RATE" = some "Division by zero." := by
    decide +kernel
  obtain ⟨e, -, -, herror, htotal⟩ :=
    ((lookup_propagates hcomplete hdef rfl htokens).1 t ht).2.2 hk (htext ▸ hsome) (htext ▸ hback)
  rw [htext] at herror
  have hsame := (herror : (resolve ledger).errors.lookup "RATE" = some e.message).symm.trans hrate
  exact ⟨hcomplete, hdef, ⟨tokens, t, htokens, ht, hk, htext⟩, hsome, hback, hrate,
    htotal.trans hsame⟩

end Recorded

end FormulaBook
