import FormulaBook.CommandLine.Run
import FormulaBook.Proofs.Lookup
import FormulaBook.Proofs.Text.Trimmed
import Mathlib.Data.List.Nodup

/-!
# The words of an execution

A formula is executed by its name, with one option for each placeholder that is bound. The option
names the placeholder in front of an equals sign, and blanks at the ends of that name are removed.

* `cut_append`, `cut_eq_none`, `exists_cut`: what stands in front of the first mark and after it;
* `context_eq_error`: the items that are no name with a value;
* `executeWords`, `ofWords?_executeWords`: the words, and the command that they ask for;
* `trimmedContext`, `context_items`: the context that is made of the options;
* `lookup_trimmedContext`: the last option with a name counts;
* `lookup_trimmedContext_of_trim_ne`, `exists_lookup_trimmedContext`, `lookup_trimmedContext_eq`:
  which of the bindings are found.
-/

namespace FormulaBook.CommandLine

open Text

/-! ### Names and values -/

theorem cut_append {mark : Char} {s : String} (h : mark ∉ s.toList) (value : String) :
    Api.cut mark (s ++ String.singleton mark ++ value) = (s, some value) := by
  have hpass : ∀ c ∈ s.toList, (c != mark) = true := fun c hc => by
    simpa using fun heq : c = mark => h (heq ▸ hc)
  have hchars : (s ++ String.singleton mark ++ value).toList =
      s.toList ++ mark :: value.toList := by
    simp
  have hstop : (mark :: value.toList).dropWhile (· != mark) = mark :: value.toList := by
    simp
  have hfront : (s.toList ++ mark :: value.toList).takeWhile (· != mark) = s.toList := by
    rw [List.takeWhile_append_of_pos hpass]
    simp
  simp only [Api.cut, hchars, List.dropWhile_append_of_pos hpass, hstop, hfront,
    String.ofList_toList]

theorem cut_eq_none {mark : Char} {s : String} (h : mark ∉ s.toList) :
    Api.cut mark s = (s, none) := by
  have hpass : s.toList.dropWhile (· != mark) = [] :=
    List.dropWhile_eq_nil_iff.2 fun c hc => bne_iff_ne.2 fun heq => h (heq ▸ hc)
  rw [Api.cut, hpass]

theorem exists_cut {mark : Char} {s : String} (h : mark ∈ s.toList) :
    ∃ name value, Api.cut mark s = (name, some value) := by
  have hstop : s.toList.dropWhile (· != mark) ≠ [] := fun heq =>
    bne_iff_ne.1 (List.dropWhile_eq_nil_iff.1 heq mark h) rfl
  obtain ⟨c, rest, hrest⟩ := List.exists_cons_of_ne_nil hstop
  rw [Api.cut, hrest]
  exact ⟨_, _, rfl⟩

/-- The first item without an equals sign is reported. -/
theorem context_eq_error {items : List String} {stop : Stop} : Job.context items = .error stop ↔
    ∃ item, items.find? (!·.toList.contains '=') = some item ∧
      stop = .error ("Invalid --ctx format: " ++ quote item ++ ". Use name=value.") := by
  unfold Job.context
  generalize ([] : Context) = done
  induction items generalizing done with
  | nil => exact iff_of_false (fun h => by cases h) (by simp)
  | cons item items ih =>
    rw [List.foldlM_cons]
    by_cases hequals : '=' ∈ item.toList
    · obtain ⟨name, value, hcut⟩ := exists_cut hequals
      rw [hcut, List.find?_cons_of_neg (by simp [hequals]), ← ih]
      rfl
    · rw [cut_eq_none hequals, List.find?_cons_of_pos (by simp [hequals])]
      simp [bind, Except.bind, eq_comm]

/-! ### Words -/

/-- The item that binds a name. -/
def item (binding : String × String) : String := binding.1 ++ "=" ++ binding.2

/-- The words that execute a formula in a context. -/
def executeWords (directory name : String) (context : Context) : List String :=
  "execute" :: directory :: name :: context.flatMap fun binding => ["--ctx", item binding]

/-- An argument is no option, and it is not the word after which only arguments follow. -/
theorem read?_argument {flags : List Flag} {word : String} (h : Words.isOption word = false)
    (rest : List String) :
    Words.read? flags (word :: rest) = (Words.read? flags rest).map (·.addArgument word) := by
  have hword : (word == "--") = false := by
    rw [beq_eq_false_iff_ne]
    rintro rfl
    exact absurd h (by decide)
  simp [Words.read?, hword, h]

/-- The option that binds a placeholder. -/
def contextFlag : Flag :=
  { name := "--ctx", value := some "TEXT", about := "Context value as name=value." }

/-- The word after an option is its value, whatever it looks like. -/
theorem read?_option {flags : List Flag} (h : flags.find? (·.name == "--ctx") = some contextFlag)
    (value : String) (rest : List String) :
    Words.read? flags ("--ctx" :: value :: rest) =
      (Words.read? flags rest).map (·.addOption "--ctx" value) := by
  have hcut : Api.cut '=' "--ctx" = ("--ctx", none) := rfl
  have hword : ("--ctx" == "--") = false := by decide
  have hoption : Words.isOption "--ctx" = true := by decide
  rw [Words.read?]
  simp only [hword, hoption, hcut, h]
  rfl

/-- The flags of an execution. -/
def executeFlags : List Flag := executeForm.flags ++ [helpFlag]

/-- The options that bind the placeholders of a context. -/
def contextOptions (context : Context) : List (String × String) :=
  context.map fun binding => ("--ctx", item binding)

theorem read?_options (context : Context) :
    Words.read? executeFlags (context.flatMap fun binding => ["--ctx", item binding]) =
      some { options := contextOptions context } := by
  induction context with
  | nil => rfl
  | cons binding context ih =>
    rw [List.flatMap_cons, List.cons_append, List.singleton_append, read?_option rfl, ih]
    rfl

/-- The words ask for the execution, with the items in their order. -/
theorem ofWords?_executeWords {directory name : String}
    (hdirectory : Words.isOption directory = false) (hname : Words.isOption name = false)
    (context : Context) :
    Command.ofWords? (executeWords directory name context) =
      some (.execute directory name (context.map item) false) := by
  let read : Words := { arguments := [directory, name], options := contextOptions context }
  have hread : Words.read? executeFlags (directory :: name :: context.flatMap fun binding =>
      ["--ctx", item binding]) = some read := by
    rw [read?_argument hdirectory, read?_argument hname, read?_options]
    rfl
  have hgiven (flag : String) (h : ("--ctx" == flag) = false) : read.has flag = false := by
    simp [Words.has, read, contextOptions, h]
  have hvalues : read.values "--ctx" = context.map item := by
    simp [Words.values, read, contextOptions, List.filter_map, Function.comp_def]
  have hform : Command.ofWords? (executeWords directory name context) =
      (Words.read? executeFlags (directory :: name :: context.flatMap fun binding =>
        ["--ctx", item binding])).bind fun w =>
          if w.has helpFlag.name then some (.help executeForm.help)
          else Command.ofForm? executeForm.name w := rfl
  have hcommand : Command.ofForm? executeForm.name read =
      some (.execute directory name (read.values "--ctx") (read.has "--json")) := rfl
  rw [hform, hread, Option.bind_some, hgiven helpFlag.name rfl, hcommand, hvalues,
    hgiven "--json" rfl]
  rfl

/-! ### Items -/

section Items

variable {context : Context} {name : String}

/-- The context that items are read as: blanks at the ends of the names are removed, and of two with
one name, the later counts. -/
def trimmedContext (context : Context) : Context :=
  context.foldl (fun done binding =>
    (trim binding.1, binding.2) :: done.filter (·.1 != trim binding.1)) []

theorem trimmedContext_concat (context : Context) (binding : String × String) :
    trimmedContext (context ++ [binding]) =
      (trim binding.1, binding.2) :: (trimmedContext context).filter (·.1 != trim binding.1) :=
  List.foldl_concat ..

theorem context_items (h : ∀ binding ∈ context, '=' ∉ binding.1.toList) :
    Job.context (context.map item) = .ok (trimmedContext context) := by
  induction context using List.reverseRecOn with
  | nil => rfl
  | append_singleton context binding ih =>
    rw [List.forall_mem_append, List.forall_mem_singleton] at h
    have hcut : Api.cut '=' (item binding) = (binding.1, some binding.2) :=
      cut_append h.2 binding.2
    have hread := ih h.1
    rw [Job.context] at hread ⊢
    rw [List.map_append, List.foldlM_append, hread, trimmedContext_concat]
    simp only [List.map_cons, List.map_nil, List.foldlM_cons, hcut]
    rfl

/-- The last binding whose name is the given one without blanks at its ends is found. -/
theorem lookup_trimmedContext (context : Context) (name : String) :
    (trimmedContext context).lookup name =
      (context.reverse.find? (trim ·.1 == name)).map (·.2) := by
  induction context using List.reverseRecOn with
  | nil => rfl
  | append_singleton context binding ih =>
    rw [trimmedContext_concat, List.reverse_concat]
    by_cases hname : trim binding.1 = name
    · subst hname
      simp
    · rw [lookup_cons_of_ne (Ne.symm hname), lookup_filter_ne (Ne.symm hname), ih,
        List.find?_cons_of_neg (by simpa using hname)]

/-- No binding is found under a name with blanks at its ends. -/
theorem lookup_trimmedContext_of_trim_ne (h : trim name ≠ name) :
    (trimmedContext context).lookup name = none := by
  rw [lookup_trimmedContext, Option.map_eq_none_iff, List.find?_eq_none]
  intro binding _ hname
  exact h (by rw [← eq_of_beq hname, trim_trim])

/-- Under a name without blanks at its ends some binding of the context is found. -/
theorem exists_lookup_trimmedContext (hname : name ∈ context.map (·.1)) (h : trim name = name) :
    ∃ binding ∈ context, (trimmedContext context).lookup name = some binding.2 := by
  obtain ⟨binding, hmem, rfl⟩ := List.mem_map.1 hname
  have hfound : (context.reverse.find? (trim ·.1 == binding.1)).isSome :=
    List.find?_isSome.2 ⟨binding, List.mem_reverse.2 hmem, by simpa using h⟩
  obtain ⟨found, hsome⟩ := Option.isSome_iff_exists.1 hfound
  refine ⟨found, List.mem_reverse.1 (List.mem_of_find?_eq_some hsome), ?_⟩
  rw [lookup_trimmedContext, hsome]
  rfl

/-- If no name has blanks at its ends and no two are the same, each binding is found. -/
theorem lookup_trimmedContext_eq (hnodup : (context.map (·.1)).Nodup)
    (h : ∀ binding ∈ context, trim binding.1 = binding.1) (hname : name ∈ context.map (·.1)) :
    (trimmedContext context).lookup name = context.lookup name := by
  obtain ⟨binding, hmem, rfl⟩ := List.mem_map.1 hname
  have hfind : context.reverse.find? (trim ·.1 == binding.1) = some binding :=
    find?_eq_some_of_unique (List.mem_reverse.2 hmem) (by simpa using h binding hmem)
      fun other hother hsame => by
        rw [List.mem_reverse] at hother
        rw [h other hother, beq_iff_eq] at hsame
        exact List.inj_on_of_nodup_map hnodup hother hmem hsame
  rw [lookup_trimmedContext, hfind, lookup_of_mem hnodup hmem]
  rfl

end Items

end FormulaBook.CommandLine
