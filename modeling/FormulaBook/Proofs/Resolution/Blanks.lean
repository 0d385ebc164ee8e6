import FormulaBook.Proofs.Decimal.Numeral
import FormulaBook.Proofs.Lexing.Blanks
import FormulaBook.Proofs.Resolution.Locality
import FormulaBook.Proofs.Resolution.Totality
import FormulaBook.Proofs.Validation

/-!
# Kinds of blanks in definitions

The checks admit every blank in an expression, while only five of them may stand between tokens. In
a list of definitions that pass the checks, all blanks can be made spaces without a change to any
value or error, as long as no dynamic variable has one of the other blanks. A dynamic variable that
has one is refused when it is resolved, whatever is around the blank. Constants may have any blanks.

* `Variable.Alike`: two definitions that are computed in the same way;
* `enter_map`, `plainSearch_map`: searches in lists of such definitions;
* `Variable.withSpaces`, `Variable.Strays`: a definition with spaces only, and a dynamic variable
  with a blank that may not stand between tokens;
* `constantValue_withSpaces`, `alike_withSpaces`: the definitions that are computed as with spaces;
* `entry_of_strays`: what is recorded for a variable that strays;
* `resolve_withSpaces`: a list of definitions with spaces.
-/

namespace FormulaBook

open Relation Text Decimal

/-! ### Definitions that are computed in the same way -/

/-- Two definitions of one name and kind that are computed in the same way: a constant has the same
value, and a dynamic variable is cut into the same tokens. -/
structure Variable.Alike (v w : Variable) : Prop where
  name_eq : w.name = v.name
  kind_eq : w.kind = v.kind
  constantValue_eq : constantValue w = constantValue v
  tokenize_eq : v.kind.parse = .ok .dynamic → tokenize w.expression = tokenize v.expression

section Map

variable {vars : List Variable} {f : Variable → Variable} (hname : ∀ v, (f v).name = v.name)

/-- The replacement of tokens asks only whether a name is defined. -/
theorem substitute_congr {enterName : String → Search Float} {defs defs' : Definitions}
    (h : ∀ name, (defs.lookup name).isNone = (defs'.lookup name).isNone) (user : String)
    (tokens : List Token) (s : SearchState) :
    substitute enterName defs user tokens s = substitute enterName defs' user tokens s := by
  induction tokens generalizing s with
  | nil => rfl
  | cons t rest ih => simp only [substitute, h, ih]

include hname

theorem lookup_map (name : String) : (Definitions.ofList (vars.map f)).lookup name =
    ((Definitions.ofList vars).lookup name).map f := by
  rw [lookup_ofList, lookup_ofList, inForce_map hname]

/-- Two definitions that are alike are computed in the same way in every state. -/
theorem compute_map {enterName : String → Search Float} {v : Variable} (h : v.Alike (f v))
    {kind : VariableKind} (hkind : v.kind.parse = .ok kind) (s : SearchState) :
    compute enterName (Definitions.ofList (vars.map f)) (f v) kind s =
      compute enterName (Definitions.ofList vars) v kind s := by
  have hdefined (name : String) : ((Definitions.ofList (vars.map f)).lookup name).isNone =
      ((Definitions.ofList vars).lookup name).isNone := by
    rw [lookup_map hname, Option.isNone_map]
  cases kind with
  | constant => rw [compute, compute, h.constantValue_eq]
  | dynamic =>
    rw [compute, compute, dynamicValue_eq, dynamicValue_eq, h.tokenize_eq hkind, h.name_eq]
    cases tokenize v.expression with
    | error e => rfl
    | ok tokens =>
      dsimp only
      rw [substitute_congr hdefined]

/-- Every name is entered in the same way if all definitions are replaced by others that are
alike. -/
theorem enter_map (halike : ∀ v ∈ vars, v.Alike (f v)) (depth : Nat) :
    enter (Definitions.ofList (vars.map f)) depth = enter (Definitions.ofList vars) depth := by
  funext name s
  unfold enter
  rw [lookup_map hname]
  cases hdef : (Definitions.ofList vars).lookup name with
  | none => rfl
  | some v =>
    have hself := halike v (mem_of_inForce (by rwa [← lookup_ofList]))
    simp only [Option.map_some, hself.kind_eq]
    cases hkind : v.kind.parse with
    | error cause => rfl
    | ok kind =>
      cases depth with
      | zero => rfl
      | succ depth => simp only [enter_map halike depth, compute_map hname hself hkind]

/-- A list is resolved to the same entries if all definitions are replaced by others that are
alike. -/
theorem resolveWithin_map (halike : ∀ v ∈ vars, v.Alike (f v)) (depth : Nat) :
    resolveWithin depth (vars.map f) = resolveWithin depth vars := by
  have hentered (names : List String) (s : SearchState) :
      resolveNames (Definitions.ofList (vars.map f)) depth names s =
        resolveNames (Definitions.ofList vars) depth names s := by
    induction names generalizing s with
    | nil => rfl
    | cons name rest ih => simp only [resolveNames, enter_map hname halike, ih]
  simp only [resolveWithin, hentered, names_map hname]

/-- The plain search for a name is the same if the definitions that can be reached from it are
replaced by others that are alike. -/
theorem plainSearch_map {path : List String} {name : String}
    (halike : ∀ other v, ReflTransGen (Refers vars) name other → inForce vars other = some v →
      v.Alike (f v)) : plainSearch (vars.map f) path name = plainSearch vars path name := by
  by_cases hpath : name ∈ path
  · rw [plainSearch_of_mem hpath, plainSearch_of_mem hpath]
  have hmap := inForce_map hname vars name
  cases hdef : inForce vars name with
  | none =>
    rw [hdef] at hmap
    rw [plainSearch_of_inForce_none hpath hmap, plainSearch_of_inForce_none hpath hdef]
  | some v =>
    have hself := halike name v .refl hdef
    rw [hdef] at hmap
    cases hkind : v.kind.parse with
    | error cause =>
      rw [plainSearch_of_parse_error hpath hmap (hself.kind_eq ▸ hkind),
        plainSearch_of_parse_error hpath hdef hkind]
    | ok kind =>
      rw [plainSearch_of_parse hpath hmap (hself.kind_eq ▸ hkind),
        plainSearch_of_parse hpath hdef hkind]
      -- The induction is on the names that are not on the path yet.
      have := offPath_lt hdef hpath
      cases kind with
      | constant => exact hself.constantValue_eq
      | dynamic =>
        rw [plainCompute, plainCompute, hself.tokenize_eq hkind, hself.name_eq]
        cases htokens : tokenize v.expression with
        | error e => rfl
        | ok tokens =>
          have hrow : tokens.mapM (replaceName (vars.map f) v.name
                (plainSearch (vars.map f) (path ++ [name]))) =
              tokens.mapM (replaceName vars v.name (plainSearch vars (path ++ [name]))) := by
            refine mapM_congr fun t ht => replaceName_congr v.name fun hk => ?_
            have hrefers : Refers vars name t.text :=
              ⟨v, tokens, hdef, hkind, htokens, t, ht, hk, rfl⟩
            rw [inForce_map hname, Option.isNone_map]
            exact ⟨rfl, plainSearch_map fun other w hr => halike other w (.head hrefers hr)⟩
          simp only [bind, Except.bind, hrow]
termination_by offPath vars path

end Map

/-! ### Definitions with spaces -/

/-- A definition with a space in the place of each blank of its expression. -/
def Variable.withSpaces (v : Variable) : Variable :=
  { v with expression := FormulaBook.withSpaces v.expression }

/-- A dynamic variable whose expression has a blank that may not stand between tokens. -/
def Variable.Strays (v : Variable) : Prop :=
  v.kind.parse = .ok .dynamic ∧ ∃ c ∈ v.expression.toList, isStray c = true

instance (v : Variable) : Decidable v.Strays :=
  decidable_of_iff (v.kind.parse = .ok .dynamic ∧ v.expression.toList.any isStray = true)
    (by simp [Variable.Strays])

/-- A numeral has blanks at its ends only, where they are removed, so their kind does not count. -/
theorem toFloat?_trim_withSpaces (s : String) :
    toFloat? (trim (withSpaces s)) = toFloat? (trim s) := by
  have hchars : (trim (withSpaces s)).toList = (trim s).toList.map asSpace := by
    rw [toList_trim, toList_withSpaces, trimBy_map isBlank_asSpace, toList_trim]
  by_cases hinside : ∃ c ∈ (trim s).toList, isBlank c = true
  · obtain ⟨c, hc, hblank⟩ := hinside
    have hc' : asSpace c ∈ (trim (withSpaces s)).toList := hchars ▸ List.mem_map_of_mem hc
    rw [toFloat?_trim_eq_none hc hblank,
      toFloat?_trim_eq_none hc' ((isBlank_asSpace c).trans hblank)]
  · have hsame : trim (withSpaces s) = trim s := by
      rw [← String.toList_inj, hchars]
      exact map_asSpace_of_forall fun c hc => Bool.eq_false_iff.2 fun h => hinside ⟨c, hc, h⟩
    rw [hsame]

theorem constantValue_withSpaces (v : Variable) : constantValue v.withSpaces = constantValue v := by
  simp only [constantValue, Variable.withSpaces, toFloat?_trim_withSpaces]

section Accepted

variable {vars : List Variable} {v : Variable}

/-- The expression of a dynamic variable that passes the checks has no placeholder. -/
theorem not_mem_open (hpasses : v.problem? [] = none) (hkind : v.kind.parse = .ok .dynamic) :
    '{' ∉ v.expression.toList := by
  rw [Variable.problem?_of_parse hkind] at hpasses
  have hallowed := allowed_of_definitionProblem?_eq_none hpasses fun c hc => by
    simp [isDynamicChar, hc]
  intro hopen
  cases hallowed '{' hopen

/-- A definition that passes the checks and does not stray is computed as with spaces. -/
theorem alike_withSpaces (hpasses : v.problem? [] = none) (hstays : ¬ v.Strays) :
    v.Alike v.withSpaces where
  name_eq := rfl
  kind_eq := rfl
  constantValue_eq := constantValue_withSpaces v
  tokenize_eq hkind := tokenize_withSpaces (not_mem_open hpasses hkind) fun c hc =>
    Bool.eq_false_iff.2 fun hstray => hstays ⟨hkind, c, hc, hstray⟩

/-- With different names, each definition counts. -/
theorem inForce_of_mem (hnodup : (vars.map (·.name)).Nodup) (hv : v ∈ vars) :
    inForce vars v.name = some v :=
  find?_eq_some_of_unique (List.mem_reverse.2 hv) (beq_self_eq_true v.name) fun _ hw hname =>
    List.inj_on_of_nodup_map hnodup (List.mem_reverse.1 hw) hv (eq_of_beq hname)

/-- The expression of a variable that strays is not cut into tokens. -/
theorem tokenize_of_strays (hpasses : v.problem? [] = none) (hstrays : v.Strays) :
    ∃ place : Nat, tokenize v.expression = .error (.invalidCharacter (some place)) := by
  obtain ⟨hkind, c, hc, hstray⟩ := hstrays
  exact tokenize_of_isStray (not_mem_open hpasses hkind) hc hstray

/-- What is recorded for a variable that strays. -/
theorem entry_of_strays (hdef : inForce vars v.name = some v) (hpasses : v.problem? [] = none)
    (hstrays : v.Strays) {depth : Nat} (hdepth : 0 < depth) :
    ∃ place : Nat, (v.name, .error (.invalidCharacter (some place))) ∈
      (resolveWithin depth vars).entries := by
  obtain ⟨place, htokens⟩ := tokenize_of_strays hpasses hstrays
  obtain ⟨entry, hentry⟩ := exists_entry.2 (by rw [hdef]; rfl)
  refine ⟨place, ?_⟩
  obtain rfl | ⟨-, -, chain, hchain, hlength⟩ := mem_entries hentry
  · have hplain : plainSearch vars [] v.name = .error (.invalidCharacter (some place)) := by
      rw [plainSearch_of_parse List.not_mem_nil hdef hstrays.1, plainCompute, htokens]
      rfl
    rwa [hplain] at hentry
  · -- A chain of references that is too long would begin with a token of the variable.
    cases chain with
    | nil => exact absurd hlength (by simpa using hdepth.ne)
    | cons other chain =>
      obtain ⟨w, tokens, hdef', -, htokens', -⟩ := (List.isChain_cons_cons.1 hchain).1
      cases hdef.symm.trans hdef'
      cases htokens.symm.trans htokens'

/-- **All blanks in definitions that pass the checks can be made spaces, if no dynamic variable has
a blank that may not stand between tokens.** Then a list is resolved to the same values and errors
for all names. A dynamic variable that has such a blank is refused, although it passes the checks. A
name from which no such variable is reached keeps its value or its error. -/
theorem resolve_withSpaces (h : variableProblems vars = []) :
    ((∀ v ∈ vars, ¬ v.Strays) → resolve (vars.map (·.withSpaces)) = resolve vars) ∧
    (∀ v ∈ vars, v.Strays →
      (∃ place : Nat, (resolve vars).entries.lookup v.name =
        some (.error (.invalidCharacter (some place)))) ∧
      (resolve vars).errors.lookup v.name = some "Expression contains invalid characters.") ∧
    ((resolve vars).Complete → (resolve (vars.map (·.withSpaces))).Complete → ∀ name,
      (∀ other v, ReflTransGen (Refers vars) name other → inForce vars other = some v →
        ¬ v.Strays) →
      (resolve (vars.map (·.withSpaces))).entries.lookup name =
        (resolve vars).entries.lookup name) := by
  obtain ⟨hall, hnodup⟩ := variableProblemsAfter_eq_nil.1 h
  have hpasses : ∀ v ∈ vars, v.problem? [] = none := fun v hv => (hall v hv).1
  have hname (v : Variable) : v.withSpaces.name = v.name := rfl
  refine ⟨fun hstays => ?_, fun v hv hstrays => ?_, fun hcomplete hcomplete' name hstays => ?_⟩
  · exact resolveWithin_map hname
      (fun v hv => alike_withSpaces (hpasses v hv) (hstays v hv)) chainLimit
  · have hdepth : 0 < chainLimit := by decide
    have hdef := inForce_of_mem hnodup hv
    obtain ⟨place, hentry⟩ := entry_of_strays hdef (hpasses v hv) hstrays hdepth
    have herror : (v.name, (EvalError.invalidCharacter (some place)).message) ∈
        (resolve vars).errors := List.mem_map.2 ⟨_, mem_failures.2 hentry, rfl⟩
    have hkeys := nodup_keys_entries chainLimit vars
    exact ⟨⟨place, lookup_of_mem hkeys hentry⟩,
      lookup_of_mem ((keys_errors_sublist (resolve vars)).nodup hkeys) herror⟩
  · have hplain : plainSearch (vars.map (·.withSpaces)) [] name = plainSearch vars [] name :=
      plainSearch_map hname fun other v hreach hdef =>
        alike_withSpaces (hpasses v (mem_of_inForce hdef)) (hstays other v hreach hdef)
    have hentry := lookup_entries (entries_eq hcomplete) name
    have hentry' := lookup_entries (entries_eq hcomplete') name
    rw [names_map hname, hplain] at hentry'
    exact hentry'.trans hentry.symm

/-- A list with a constant between blanks of other kinds, a dynamic variable with two kinds that may
stand between tokens, a constant whose kind is a text, so that its expression need not be a number,
a dynamic variable with a blank that may not stand between tokens, and one that refers to it. -/
def blankKinds : List Variable :=
  [⟨"A", .known .constant, "\u00a02\u2003"⟩, ⟨"B", .known .dynamic, "A\t*\n3"⟩,
    ⟨"K", .text "CONSTANT", "B\u00a0+ 1"⟩, ⟨"C", .known .dynamic, "1\u00a0+ 2"⟩, ⟨"D", .known .dynamic, "C + 1"⟩]

/-- With spaces only, `C` has a value. -/
theorem resolve_withSpaces_blankKinds : variableProblems blankKinds = [] ∧
    resolve ((blankKinds.take 3).map (·.withSpaces)) = resolve (blankKinds.take 3) ∧
    (resolve blankKinds).errors.lookup "C" = some "Expression contains invalid characters." ∧
    (resolve (blankKinds.map (·.withSpaces))).values.lookup "C" = some 3 ∧
    (resolve (blankKinds.map (·.withSpaces))).entries.lookup "B" =
      (resolve blankKinds).entries.lookup "B" := by
  have hpasses : variableProblems blankKinds = [] := by decide +kernel
  have hpasses' : variableProblems (blankKinds.take 3) = [] := by decide +kernel
  have hstays : ∀ v ∈ blankKinds.take 3, ¬ v.Strays := by decide +kernel
  have hstrays : (⟨"C", .known .dynamic, "1\u00a0+ 2"⟩ : Variable).Strays := by decide +kernel
  have hcomplete : (resolve blankKinds).Complete := by decide +kernel
  have hcomplete' : (resolve (blankKinds.map (·.withSpaces))).Complete := by decide +kernel
  have hreach : ∀ other v, ReflTransGen (Refers blankKinds) "B" other →
      inForce blankKinds other = some v → ¬ v.Strays := by
    intro other v hr hdef
    have hlisted := ReflTransGen.mono (fun _ _ => Refers.dependsOn) _ _ hr
    have hmem : other ∈ ["A", "B"] := mem_of_reflTransGen (by decide +kernel) (by decide) hlisted
    have hall : ∀ k ∈ ["A", "B"], ∀ v ∈ inForce blankKinds k, ¬ v.Strays := by decide +kernel
    exact hall other hmem v hdef
  obtain ⟨-, hrefused, hkept⟩ := resolve_withSpaces hpasses
  exact ⟨hpasses, (resolve_withSpaces hpasses').1 hstays,
    (hrefused _ (by decide) hstrays).2, by decide +kernel, hkept hcomplete hcomplete' "B" hreach⟩

end Accepted

end FormulaBook
