import FormulaBook.Proofs.Lexing.Blanks
import FormulaBook.Proofs.Resolution.Range
import FormulaBook.Proofs.Validation

/-!
# Computed expressions pass the checks

The characters that the checks allow in the expression of a dynamic variable and the lexemes that an
expression is cut into are told apart in two places. Every lexeme but a placeholder is made of
allowed characters, and an expression with a value has a token, so the checks find no fault with the
expression of a variable that gets a value. They may still refuse its name.

* `isDynamicChar_of_isLexeme`, `isDynamicChar_of_tokenize`: the characters of an expression without
  placeholders;
* `exists_not_isBlank_of_tokenize`: an expression with a token is not blank;
* `allowed_of_hasValue`, `problem?_of_hasValue`: the checks of a variable that has a value;
* `problem?_of_mem_values`: the checks of a variable that gets a value in a list.
-/

namespace FormulaBook

open Text

/-! ### Characters -/

section Characters

variable {text : String} {tokens : List Token}

theorem isDynamicChar_of_isLexeme {kind : Option TokenKind} {l : List Char} (h : IsLexeme kind l)
    (hkind : kind ≠ some .placeholder) : ∀ c ∈ l, isDynamicChar c = true := by
  have hname {c : Char} (hc : isNameChar c = true) : isDynamicChar c = true := by
    simp [isDynamicChar, hc]
  cases h with
  | blank _ hl =>
    intro c hc
    simp [isDynamicChar, isBlank_of_isLayout (hl c hc)]
  | number _ hl =>
    intro c hc
    obtain hdigit | hpoint := Bool.or_eq_true_iff.1 (hl c hc)
    · exact hname (by simp [isNameChar, hdigit])
    · simp [isDynamicChar, hpoint]
  | identifier hstart hl =>
    exact List.forall_mem_cons.2 ⟨hname (isNameChar_of_isNameStart hstart),
      fun c hc => hname (hl c hc)⟩
  | operator hc => exact List.forall_mem_singleton.2 (by simp [isDynamicChar, hc])
  | lparen | rparen => exact List.forall_mem_singleton.2 rfl
  | placeholder => exact absurd rfl hkind

/-- An expression that is cut into tokens, none of them a placeholder, is made of characters that
are allowed in the expression of a dynamic variable. -/
theorem isDynamicChar_of_tokenize (htokens : tokenize text = .ok tokens)
    (hplain : ∀ t ∈ tokens, t.kind ≠ .placeholder) : ∀ c ∈ text.toList, isDynamicChar c = true := by
  obtain ⟨pieces, hspell, -, rfl⟩ := tokenize_eq_ok.1 htokens
  intro c hc
  rw [← hspell] at hc
  obtain ⟨p, hp, hc⟩ := List.mem_flatMap.1 hc
  refine isDynamicChar_of_isLexeme p.isLexeme (fun hk => ?_) c hc
  obtain ⟨t, ht, htk⟩ := exists_mem_tokensFrom hp hk 0
  exact hplain t ht htk

/-- An expression with a token has a character that is no blank. -/
theorem exists_not_isBlank_of_tokenize (htokens : tokenize text = .ok tokens)
    (hplain : ∀ t ∈ tokens, t.kind ≠ .placeholder) (hne : tokens ≠ []) :
    ∃ c ∈ text.toList, isBlank c = false := by
  have hallowed := isDynamicChar_of_tokenize htokens hplain
  obtain ⟨pieces, hspell, -, rfl⟩ := tokenize_eq_ok.1 htokens
  obtain ⟨t, ht⟩ := List.exists_mem_of_ne_nil _ hne
  obtain ⟨p, hp, kind, -, -, hk, -⟩ := exists_piece_of_mem_tokensFrom ht
  have hchars : ∀ c ∈ p.chars, c ∈ text.toList := fun c hc =>
    hspell ▸ List.mem_flatMap.2 ⟨p, hp, hc⟩
  have hopen : '{' ∉ p.chars := fun hc => nomatch hallowed '{' (hchars _ hc)
  obtain ⟨c, hc⟩ := List.exists_mem_of_ne_nil _ p.chars_ne_nil
  exact ⟨c, hchars c hc, not_isBlank_of_isLexeme (hk ▸ p.isLexeme) hopen c hc⟩

end Characters

/-! ### Definitions -/

section Definitions

variable {vars : List Variable} {v : Variable} {taken : List String}

/-- The expression of a dynamic variable that gets a value is not blank, and it is made of
characters that are allowed. -/
theorem allowed_of_hasValue {x : Float} (hdef : inForce vars v.name = some v)
    (hkind : v.kind.parse = .ok .dynamic) (hvalue : HasValue vars v.name x) :
    trimBy isBlank v.expression.toList ≠ [] ∧
      ∀ c ∈ trimBy isBlank v.expression.toList, isDynamicChar c = true := by
  cases hvalue with
  | constant hdef' hkind' =>
    cases hdef.symm.trans hdef'
    cases hkind.symm.trans hkind'
  | @dynamic _ _ tokens _ _ hdef' _ htokens hplain _ heval =>
    cases hdef.symm.trans hdef'
    -- No tokens at all have no value.
    have hne : tokens ≠ [] := by
      rintro rfl
      cases heval
    obtain ⟨c, hc, hblank⟩ := exists_not_isBlank_of_tokenize htokens hplain hne
    exact ⟨trimBy_ne_nil hc hblank,
      fun c hc => isDynamicChar_of_tokenize htokens hplain c (mem_of_mem_trimBy hc)⟩

/-- The checks look at the name only of a dynamic variable that gets a value. -/
theorem problem?_of_hasValue {x : Float} (hdef : inForce vars v.name = some v)
    (hkind : v.kind.parse = .ok .dynamic) (hvalue : HasValue vars v.name x)
    (taken : List String) : v.problem? taken =
      if v.name.isEmpty then some .nameMissing
      else if !isName v.name then some .nameMalformed
      else if taken.contains v.name then some .nameTaken
      else none := by
  obtain ⟨hne, hall⟩ := allowed_of_hasValue hdef hkind hvalue
  have hthere : (trimBy isBlank v.expression.toList).isEmpty = false := by simpa using hne
  have hallowed : (trimBy isBlank v.expression.toList).all isDynamicChar = true :=
    List.all_eq_true.2 hall
  rw [Variable.problem?_of_parse hkind, definitionProblem?]
  simp [hthere, hallowed]

/-- **A dynamic variable that gets a value has an expression that passes the checks.** Whatever list
it stands in, however short the chains of references must be there, and whatever names are in use,
the checks neither miss its expression nor find a character in it that is not allowed. They refuse
it for its name only: if it is no name, or if it is in use. -/
theorem problem?_of_mem_values {depth : Nat} (hdef : inForce vars v.name = some v)
    (hkind : v.kind.parse = .ok .dynamic)
    (hvalue : v.name ∈ (resolveWithin depth vars).values.map (·.1)) (taken : List String) :
    (∀ p ∈ v.problem? taken, p.message .variable ≠ "Expression / value is required." ∧
      p.message .variable ≠ "Expression contains invalid characters.") ∧
    (v.problem? taken = none ↔ isName v.name = true ∧ v.name ∉ taken) := by
  obtain ⟨⟨_, x⟩, hmem, rfl⟩ := List.mem_map.1 hvalue
  have hhas := hasValue_of_mem_values hmem
  constructor
  · rw [problem?_of_hasValue hdef hkind hhas]
    intro p hp
    repeat' split at hp
    all_goals cases hp
    all_goals exact ⟨by decide, by decide⟩
  · obtain ⟨hne, hall⟩ := allowed_of_hasValue hdef hkind hhas
    rw [Variable.problem?_of_parse hkind, definitionProblem?_eq_none]
    exact ⟨fun h => ⟨h.1, h.2.2.2⟩, fun h => ⟨h.1, hne, hall, h.2⟩⟩

/-- A variable that is defined again, between blanks and with a kind that is stated in small
letters. -/
def padded : Variable := ⟨"D", .text " dynamic", "\t(A - 1.5) * A\n"⟩

/-- A constant and the two definitions, the first of which has no value. -/
def paddedList : List Variable :=
  [⟨"A", .known .constant, "2"⟩, ⟨"D", .known .dynamic, "A ? 1"⟩, padded]

/-- The definition in force passes the checks, unless its name is in use. -/
theorem problem?_of_mem_values_padded : inForce paddedList "D" = some padded ∧
    padded.kind.parse = .ok .dynamic ∧ "D" ∈ (resolve paddedList).values.map (·.1) ∧
    padded.problem? ["A"] = none ∧ ∀ p ∈ padded.problem? ["D"],
      p.message .variable ≠ "Expression contains invalid characters." := by
  have hdef : inForce paddedList "D" = some padded := by decide
  have hkind : padded.kind.parse = .ok .dynamic := by decide +kernel
  have hvalue : "D" ∈ (resolve paddedList).values.map (·.1) := by decide +kernel
  have hchecks := problem?_of_mem_values (v := padded) hdef hkind hvalue
  exact ⟨hdef, hkind, hvalue, (hchecks ["A"]).2.2 ⟨by decide, by decide⟩,
    fun p hp => ((hchecks ["D"]).1 p hp).2⟩

end Definitions

end FormulaBook
