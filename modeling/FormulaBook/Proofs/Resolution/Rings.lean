import FormulaBook.Proofs.Resolution.Blame
import FormulaBook.Proofs.Resolution.Cycles
import Mathlib.Data.List.Rotate

/-!
# The members of a reported cycle

A cycle is reported where each of its names is to blame for the error of the name before it. Which
name is to blame does not depend on where a search has begun, so every member of a reported cycle
reports the same cycle, beginning with itself.

* `BlameRing`: names each of which blames the next one, and the last one the first;
* `BlameRing.swap`: a ring that begins elsewhere;
* `isChain_blames_of_plainSearch`: a reported cycle consists of blames;
* `BlameRing.plainSearch`: what a member of a ring reports;
* `circularDependency_members`: the entries of the members of a reported cycle.
-/

namespace FormulaBook

open Relation

/-- Different names each of which blames the next one, and the last one the first. -/
structure BlameRing (vars : List Variable) (ring : List String) : Prop where
  nodup : ring.Nodup
  chain : ∀ first ∈ ring.head?, (ring ++ [first]).IsChain (Blames vars)

section Ring

variable {vars : List Variable}

/-- A ring can be entered at any of its names. -/
theorem BlameRing.swap {before after : List String} (h : BlameRing vars (before ++ after)) :
    BlameRing vars (after ++ before) := by
  refine ⟨List.nodup_append_comm.1 h.nodup, ?_⟩
  cases before with
  | nil => simpa using h.chain
  | cons a before =>
    cases after with
    | nil => simpa using h.chain
    | cons b after =>
      have hchain : (a :: before ++ b :: after ++ [a]).IsChain (Blames vars) := h.chain a rfl
      rintro first ⟨⟩
      -- The two arcs between `a` and `b` are parts of the ring, and here they are joined at `a`.
      have hfront : ([a] ++ (before ++ [b])).IsChain (Blames vars) := by
        refine hchain.infix ⟨[], after ++ [a], ?_⟩
        simp
      have hback : (b :: after ++ [a]).IsChain (Blames vars) := by
        rw [List.append_assoc] at hchain
        exact hchain.right_of_append
      have hjoined := hback.append_overlap hfront (by simp)
      simpa using hjoined

theorem entered_of_isChain {path : List String} {name : String} (hnodup : path.Nodup)
    (hchain : (path ++ [name]).IsChain (Blames vars)) : Entered vars name path.reverse := by
  refine ⟨List.nodup_reverse.2 hnodup, ?_⟩
  rw [← List.reverse_concat, List.isChain_reverse]
  exact hchain.imp fun _ _ => Blames.refers

/-- The cycle that a search reports, when each name on its path blames the next one, is made of
blames as well. -/
theorem isChain_blames_of_plainSearch {path : List String} {name c : String} {cycle : List String}
    (hdef : (inForce vars name).isSome = true) (hnodup : path.Nodup)
    (hchain : (path ++ [name]).IsChain (Blames vars))
    (h : plainSearch vars path name = .error (.circularDependency c cycle)) :
    cycle.IsChain (Blames vars) := by
  by_cases hpath : name ∈ path
  · rw [plainSearch_of_mem hpath] at h
    cases h
    obtain ⟨outer, houter⟩ := List.dropWhile_suffix (l := path) (· != name)
    refine hchain.suffix ⟨outer, ?_⟩
    rw [← List.append_assoc, houter]
  · obtain hown | ⟨other, hblames, he⟩ :=
      blames_of_plainSearch_error (entered_of_isChain hnodup hchain) hdef hpath h
    · exact absurd rfl hown.ne_circularDependency
    · have hnodup' : (path ++ [name]).Nodup := by
        simpa [List.nodup_append] using ⟨hnodup, fun k hk heq => hpath (heq ▸ hk)⟩
      have hchain' : (path ++ [name] ++ [other]).IsChain (Blames vars) :=
        hchain.append (List.isChain_singleton other) (by simpa using hblames)
      have hother : (inForce vars other).isSome = true := by
        obtain ⟨-, -, -, -, hsome, -⟩ := hblames
        exact hsome
      -- The induction is on the names that are not on the path yet.
      obtain ⟨v, hv⟩ := Option.isSome_iff_exists.1 hdef
      have := offPath_lt hv hpath
      exact isChain_blames_of_plainSearch hother hnodup' hchain' he
termination_by offPath vars path

/-- A search goes on to the name that is to blame. -/
theorem plainSearch_step {path rest more : List String} {name next : String}
    (hnodup : (path ++ name :: rest).Nodup)
    (hchain : (path ++ name :: next :: more).IsChain (Blames vars)) :
    plainSearch vars path name = plainSearch vars (path ++ [name]) next := by
  have hpath : name ∉ path := fun hm =>
    (List.nodup_append.1 hnodup).2.2 name hm name List.mem_cons_self rfl
  have hblames : Blames vars name next :=
    (List.isChain_cons_cons.1 hchain.right_of_append).1
  rw [← List.singleton_append, ← List.append_assoc] at hchain
  exact plainSearch_of_blames (entered_of_isChain hnodup.of_append_left hchain.left_of_append)
    hpath hblames

/-- A search follows the names that are to blame, as long as it meets none twice. -/
theorem plainSearch_of_isChain {path rest : List String} {name other : String}
    (hnodup : (path ++ name :: rest).Nodup)
    (hchain : (path ++ name :: (rest ++ [other])).IsChain (Blames vars)) :
    plainSearch vars path name = plainSearch vars (path ++ name :: rest) other := by
  induction rest generalizing path name with
  | nil => exact plainSearch_step hnodup hchain
  | cons next rest ih =>
    rw [plainSearch_step hnodup hchain, List.append_cons path name (next :: rest)]
    rw [List.append_cons] at hnodup hchain
    exact ih hnodup hchain

/-- A member of a ring reports the ring, beginning with itself. -/
theorem BlameRing.plainSearch {k : String} {rest : List String} (h : BlameRing vars (k :: rest)) :
    plainSearch vars [] k = .error (.circularDependency k (k :: rest ++ [k])) := by
  have hchain : ([] ++ k :: (rest ++ [k])).IsChain (Blames vars) := h.chain k rfl
  have hnodup : ([] ++ k :: rest).Nodup := h.nodup
  rw [plainSearch_of_isChain hnodup hchain, List.nil_append,
    plainSearch_of_mem List.mem_cons_self, List.dropWhile_cons_of_neg (by simp)]

end Ring

/-! ### The entries of a list -/

section Recorded

variable {vars : List Variable} {depth : Nat}

/-- A reported cycle is a ring of blames. -/
theorem blameRing_of_entry (hcomplete : (resolveWithin depth vars).Complete) {name c : String}
    {path : List String} (h : (resolveWithin depth vars).entries.lookup name =
      some (.error (.circularDependency c path))) :
    ∃ rest, path = c :: rest ++ [c] ∧ BlameRing vars (c :: rest) := by
  obtain ⟨⟨rest, rfl⟩, hnodup, -⟩ := (cycleAt_of_entry hcomplete h).1
  rw [← List.cons_append, List.dropLast_concat] at hnodup
  rw [lookup_entries (entries_eq hcomplete)] at h
  split at h
  · rename_i hname
    have hchain := isChain_blames_of_plainSearch (mem_names_iff_inForce.1 hname) List.nodup_nil
      (List.isChain_singleton name) (Option.some.inj h)
    refine ⟨rest, rfl, hnodup, ?_⟩
    rintro first ⟨⟩
    exact hchain
  · cases h

theorem BlameRing.lookup_entries {k : String} {rest : List String}
    (hcomplete : (resolveWithin depth vars).Complete) (h : BlameRing vars (k :: rest)) :
    (resolveWithin depth vars).entries.lookup k =
      some (.error (.circularDependency k (k :: rest ++ [k]))) := by
  have hdef : (inForce vars k).isSome = true := by
    have hchain : (k :: (rest ++ [k])).IsChain (Blames vars) := h.chain k rfl
    cases rest with
    | nil => exact (List.isChain_cons_cons.1 hchain).1.isSome_inForce
    | cons next rest => exact (List.isChain_cons_cons.1 hchain).1.isSome_inForce
  exact (lookup_of_plainSearch_error hcomplete hdef h.plainSearch).1

/-- **All members of a reported cycle report the same cycle.** If the entry of some name is a
circular dependency, then its path goes round a ring of names, and the entry of each of these names
is a circular dependency of its own, whose path goes round the ring from there. -/
theorem circularDependency_members (hcomplete : (resolveWithin depth vars).Complete)
    {name c : String} {path : List String} (h : (resolveWithin depth vars).entries.lookup name =
      some (.error (.circularDependency c path))) :
    ∃ ring : List String, ring.head? = some c ∧ path = ring ++ [c] ∧
      ∀ i (hi : i < ring.length), (resolveWithin depth vars).entries.lookup ring[i] =
        some (.error (.circularDependency ring[i] (ring.rotate i ++ [ring[i]]))) := by
  obtain ⟨rest, rfl, hring⟩ := blameRing_of_entry hcomplete h
  refine ⟨c :: rest, rfl, rfl, fun i hi => ?_⟩
  have hswap := (List.take_append_drop i (c :: rest) ▸ hring).swap
  rw [← List.rotate_eq_drop_append_take hi.le] at hswap
  have hrotate : (c :: rest).rotate i =
      (c :: rest)[i] :: ((c :: rest).drop (i + 1) ++ (c :: rest).take i) := by
    rw [List.rotate_eq_drop_append_take hi.le, List.drop_eq_getElem_cons hi, List.cons_append]
  rw [hrotate] at hswap ⊢
  exact hswap.lookup_entries hcomplete

/-- Two cycles that share a name, and a name outside that leads into one of them. -/
def clover : List Variable :=
  [⟨"TOP", .known .dynamic, "BASE * B"⟩, ⟨"A", .known .dynamic, "BASE + B"⟩,
    ⟨"B", .text "Dynamic", "BASE * C - D"⟩, ⟨"C", .known .dynamic, "A / D"⟩,
    ⟨"D", .known .dynamic, "B + C"⟩, ⟨"BASE", .known .constant, "4"⟩]

/-- The cycle is first met at `B`, and its other members tell it from where they stand; the second
cycle, of `B` and `D`, is reported by none. -/
theorem circularDependency_members_clover : (resolve clover).Complete ∧
    (resolve clover).entries.lookup "TOP" =
      some (.error (.circularDependency "B" ["B", "C", "A", "B"])) ∧
    (resolve clover).entries.lookup "A" =
      some (.error (.circularDependency "A" ["A", "B", "C", "A"])) := by
  have hcomplete : (resolve clover).Complete := by decide +kernel
  have htop : (resolve clover).entries.lookup "TOP" =
      some (.error (.circularDependency "B" ["B", "C", "A", "B"])) := by decide +kernel
  obtain ⟨ring, -, hpath, hall⟩ := circularDependency_members hcomplete htop
  have hpath : ["B", "C", "A"] ++ ["B"] = ring ++ ["B"] := hpath
  obtain rfl : ["B", "C", "A"] = ring := List.append_cancel_right hpath
  exact ⟨hcomplete, htop, hall 2 (by decide)⟩

end Recorded

end FormulaBook
