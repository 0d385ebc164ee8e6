import FormulaBook.Proofs.Resolution.Blame
import FormulaBook.Proofs.Resolution.Totality

/-!
# Other definitions of one value

A definition can be replaced by another one that gives its name the same value, and nothing else
changes: no value, no error and no reported cycle. In particular a variable that has a value can be
turned into a constant, although this cuts all references from it.

* `plainSearch_redefine`: the plain search with another definition of one value;
* `Variable.folded`: a definition that becomes a constant if it defines a certain name;
* `hasValue_folded`: the value of that name;
* `resolveWithin_folded`: constants in the place of definitions.
-/

namespace FormulaBook

open Relation Text

/-! ### Another definition -/

section Redefine

variable {vars vars' : List Variable} {target : String} {x : Float}

/-- Two lists that differ in the definition of one name, which has the same value in both, lead every
search along references of both to the same outcome. -/
theorem plainSearch_redefine (hsame : ∀ k, k ≠ target → inForce vars' k = inForce vars k)
    (hx : HasValue vars target x) (hx' : HasValue vars' target x) {path : List String}
    {name : String} (h : Entered vars name path.reverse) (h' : Entered vars' name path.reverse) :
    plainSearch vars' path name = plainSearch vars path name := by
  by_cases hpath : name ∈ path
  · rw [plainSearch_of_mem hpath, plainSearch_of_mem hpath]
  by_cases htarget : name = target
  · subst htarget
    rw [(plainSearch_eq_ok h).2 hx, (plainSearch_eq_ok h').2 hx']
  have hself := hsame name htarget
  cases hdef : inForce vars name with
  | none =>
    rw [plainSearch_of_inForce_none hpath hdef,
      plainSearch_of_inForce_none hpath (hself.trans hdef)]
  | some v =>
    cases hkind : v.kind.parse with
    | error cause =>
      rw [plainSearch_of_parse_error hpath hdef hkind,
        plainSearch_of_parse_error hpath (hself.trans hdef) hkind]
    | ok kind =>
      rw [plainSearch_of_parse hpath hdef hkind,
        plainSearch_of_parse hpath (hself.trans hdef) hkind]
      refine plainCompute_congr fun hdynamic tokens htokens t ht hk => ⟨?_, ?_⟩
      · by_cases ht : t.text = target
        · rw [ht, Option.isNone_eq_false_iff.2 hx.isSome_inForce,
            Option.isNone_eq_false_iff.2 hx'.isSome_inForce]
        · rw [hsame t.text ht]
      · -- `name` is not the target, so it refers to the same names in both lists.
        subst hdynamic
        have hrefers : Refers vars name t.text := ⟨v, tokens, hdef, hkind, htokens, t, ht, hk, rfl⟩
        have hrefers' : Refers vars' name t.text :=
          ⟨v, tokens, hself.trans hdef, hkind, htokens, t, ht, hk, rfl⟩
        -- The induction is on the names that are not on the path yet.
        have := offPath_lt hdef hpath
        exact plainSearch_redefine hsame hx hx' (h.concat hpath hrefers) (h'.concat hpath hrefers')
termination_by offPath vars path

end Redefine

/-! ### Constants in the place of definitions -/

/-- A definition, turned into the constant `text` if it defines `target`. -/
def Variable.folded (target text : String) (v : Variable) : Variable :=
  if v.name = target then ⟨target, .known .constant, text⟩ else v

section Folded

variable {vars : List Variable} {target text name : String} {x : Float} {depth : Nat}

theorem name_folded (v : Variable) : (v.folded target text).name = v.name := by
  unfold Variable.folded
  split
  · rename_i h
    exact h.symm
  · rfl

theorem hasValue_folded (hdef : (inForce vars target).isSome = true) (hfinite : x.isFinite = true)
    (hread : Decimal.toFloat? (trim text) = some x) :
    HasValue (vars.map (·.folded target text)) target x := by
  obtain ⟨v, hv⟩ := Option.isSome_iff_exists.1 hdef
  have hconstant : inForce (vars.map (·.folded target text)) target =
      some ⟨target, .known .constant, text⟩ := by
    rw [inForce_map name_folded, hv, Option.map_some, Variable.folded, if_pos (name_of_inForce hv)]
  exact .constant hconstant rfl hread hfinite

theorem hasValue_of_lookup_values (h : (resolveWithin depth vars).Complete)
    (hx : (resolveWithin depth vars).values.lookup name = some x) : HasValue vars name x := by
  rw [lookup_values (entries_eq h)] at hx
  split at hx
  · exact hasValue_of_plainSearch [] (mem_toOption.1 hx)
  · cases hx

/-- **A variable that has a value can be turned into a constant**: if its definitions are replaced
by a constant that reads as the very value that it has, the list is resolved to the same values and
errors for all names. -/
theorem resolveWithin_folded (hcomplete : (resolveWithin depth vars).Complete)
    (hcomplete' : (resolveWithin depth (vars.map (·.folded target text))).Complete)
    (hx : (resolveWithin depth vars).values.lookup target = some x) (hfinite : x.isFinite = true)
    (hread : Decimal.toFloat? (trim text) = some x) :
    resolveWithin depth (vars.map (·.folded target text)) = resolveWithin depth vars := by
  have hvalue := hasValue_of_lookup_values hcomplete hx
  have hvalue' := hasValue_folded hvalue.isSome_inForce hfinite hread
  have hsame : ∀ k, k ≠ target →
      inForce (vars.map (·.folded target text)) k = inForce vars k := by
    intro k hk
    rw [inForce_map name_folded]
    cases hdef : inForce vars k with
    | none => rfl
    | some v =>
      have hname : v.name ≠ target := by rwa [name_of_inForce hdef]
      rw [Option.map_some, Variable.folded, if_neg hname]
  have hsearch : ∀ name, plainSearch (vars.map (·.folded target text)) [] name =
      plainSearch vars [] name := fun name =>
    plainSearch_redefine hsame hvalue hvalue' (Entered.nil _ name) (Entered.nil _ name)
  have hentries := entries_eq hcomplete'
  rw [names_map name_folded, funext fun name => congrArg (Prod.mk name) (hsearch name),
    ← entries_eq hcomplete] at hentries
  exact congrArg Resolution.mk hentries

/-- A dynamic variable that another one uses, beside a cycle and an unknown kind. -/
theorem resolveWithin_folded_tangled : (resolve tangled).Complete ∧
    (resolve (tangled.map (·.folded "E" " 4e0 "))).Complete ∧
    (resolve tangled).values.lookup "E" = some 4 ∧ (4 : Float).isFinite = true ∧
    Decimal.toFloat? (trim " 4e0 ") = some 4 ∧
    resolve (tangled.map (·.folded "E" " 4e0 ")) = resolve tangled := by
  have hcomplete : (resolve tangled).Complete := by decide +kernel
  have hcomplete' : (resolve (tangled.map (·.folded "E" " 4e0 "))).Complete := by decide +kernel
  have hx : (resolve tangled).values.lookup "E" = some 4 := by decide +kernel
  have hfinite : (4 : Float).isFinite = true := by decide +kernel
  have hread : Decimal.toFloat? (trim " 4e0 ") = some 4 := by decide +kernel
  exact ⟨hcomplete, hcomplete', hx, hfinite, hread,
    resolveWithin_folded hcomplete hcomplete' hx hfinite hread⟩

end Folded

end FormulaBook
