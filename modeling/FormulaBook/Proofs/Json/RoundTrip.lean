import FormulaBook.Proofs.Json.Escape
import FormulaBook.Proofs.Json.Fields
import FormulaBook.Proofs.Json.Number
import FormulaBook.Proofs.Json.Structure
import FormulaBook.Proofs.Text.Halves

/-!
# JSON that is read back

A value that is written on one line is read, wherever a value may stand, if its numbers are not too
long and its containers not too deep. It is read back as it was if nothing in it is written like
something else: doubles read back from their digits, no two halves of pairs meet in a text, and no
two fields of an object have one name. Otherwise halves that meet are joined, and of two fields of
one name the last counts.

* `reread`: the value that a value is read as;
* `Legible`: the values in which nothing is written like something else, with `reread_of_legible`;
* `isPlain_of_mem_render`, `isAscii_renderIndented`: the characters of a value that is written;
* `Reads`: what some characters do to what has been read, with `Reads.trans`;
* `IsRead`, `reads_items`, `reads_fields`: values, items and fields that are read;
* `isRead`, `parse_render_append`, `parse_render_reread`: written values are read, with blanks behind
  them or not.
-/

namespace FormulaBook.Json

open Text

/-- The values in which nothing is written like something else. -/
inductive Legible : Json → Prop
  | null : Legible .null
  | bool (b : Bool) : Legible (.bool b)
  | int (n : Int) : Legible (.int n)
  | float {x : Float} (h : Decimal.signedFloat? (renderFloat x).toList = some x) :
      Legible (.float x)
  | text {s : String} (h : HalvesApart s) : Legible (.text s)
  | list {items : List Json} (h : ∀ j ∈ items, Legible j) : Legible (.list items)
  | object {fields : List (String × Json)} (names : (fields.map Prod.fst).Nodup)
      (apart : ∀ f ∈ fields, HalvesApart f.1) (h : ∀ f ∈ fields, Legible f.2) :
      Legible (.object fields)

/-! ### What is read -/

mutual

/-- The value that a value is read as when it is written. -/
def reread : Json → Json
  | .null => .null
  | .bool b => .bool b
  | .int n => .int n
  | .float x => .float (rereadFloat x)
  | .text s => .text (joined s)
  | .list items => .list (rereadItems items)
  | .object fields => Reading.closeObject (rereadFields fields).reverse

/-- The items of a list, each as it is read. -/
def rereadItems : List Json → List Json
  | [] => []
  | j :: rest => j.reread :: rereadItems rest

/-- The fields of an object, each as it is read. -/
def rereadFields : List (String × Json) → List (String × Json)
  | [] => []
  | (name, j) :: rest => (joined name, j.reread) :: rereadFields rest

end

theorem rereadItems_eq_map (items : List Json) : rereadItems items = items.map reread := by
  induction items with
  | nil => rfl
  | cons j items ih => rw [rereadItems, ih, List.map_cons]

theorem rereadFields_eq_map (fields : List (String × Json)) :
    rereadFields fields = fields.map fun f => (joined f.1, f.2.reread) := by
  induction fields with
  | nil => rfl
  | cons f fields ih => rw [rereadFields, ih, List.map_cons]

/-- Fields with different names stay as they are. -/
theorem closeObject_reverse {fields : List (String × Json)} (h : (fields.map Prod.fst).Nodup) :
    Reading.closeObject fields.reverse = .object fields := by
  rw [Reading.closeObject, List.reverse_reverse]
  exact congrArg object (foldl_setField h)

/-- Under each name an object has the last field of that name. -/
theorem field?_closeObject (fields : List (String × Json)) (name : String) :
    (Reading.closeObject fields).field? name = fields.lookup name := by
  show (fields.reverse.foldl (fun done f => setField f.1 f.2 done) []).lookup name = _
  rw [lookup_foldl_setField, List.lookup_nil, Option.or_none]

/-- Under a name of ASCII characters an object with different names is read with its field. -/
theorem field?_reread {fields : List (String × Json)} (hnodup : (fields.map Prod.fst).Nodup)
    {name : String} (hname : IsAscii name) :
    (object fields).reread.field? name = (fields.lookup name).map reread := by
  have hmem (v : Json) : (name, v) ∈ (rereadFields fields).reverse ↔
      ∃ j, (name, j) ∈ fields ∧ j.reread = v := by
    simp [rereadFields_eq_map, joined_eq_iff hname]
  have hunique (v w : Json) (hv : (name, v) ∈ (rereadFields fields).reverse)
      (hw : (name, w) ∈ (rereadFields fields).reverse) : v = w := by
    obtain ⟨j, hj, rfl⟩ := (hmem v).1 hv
    obtain ⟨k, hk, rfl⟩ := (hmem w).1 hw
    rw [unique_of_nodup hnodup j k hj hk]
  rw [reread, field?_closeObject]
  ext v
  rw [lookup_eq_some_of_unique hunique, hmem, Option.map_eq_some_iff]
  simp only [lookup_eq_some_of_unique (unique_of_nodup hnodup)]

/-- Fields with different names, in which no halves meet, are read under these names. -/
theorem reread_object {fields : List (String × Json)} (hnodup : (fields.map Prod.fst).Nodup)
    (hnames : ∀ f ∈ fields, HalvesApart f.1) :
    (object fields).reread = .object (fields.map fun f => (f.1, f.2.reread)) := by
  have hfields : rereadFields fields = fields.map fun f => (f.1, f.2.reread) := by
    rw [rereadFields_eq_map]
    exact List.map_congr_left fun f hf => by rw [joined_of_halvesApart (hnames f hf)]
  rw [reread, hfields, closeObject_reverse (by rwa [List.map_map])]

/-- What is legible is read back. -/
theorem reread_of_legible {j : Json} (h : j.Legible) : j.reread = j := by
  induction h with
  | null | bool | int => rfl
  | float h => rw [reread, rereadFloat, h, Option.getD_some]
  | text h => rw [reread, joined_of_halvesApart h]
  | list _ ih => rw [reread, rereadItems_eq_map, List.map_congr_left ih, List.map_id']
  | @object fields names apart _ ih =>
    have hsame : (fields.map fun f => (f.1, f.2.reread)) = fields.map id :=
      List.map_congr_left fun f hf => by rw [ih f hf]; rfl
    rw [reread_object names apart, hsame, List.map_id]

/-! ### Rows of parts -/

/-- The characters of a row of parts, with a comma and a blank between two of them. -/
def rowChars : List (List Char) → List Char
  | [] => []
  | part :: parts => part ++ parts.flatMap ([',', ' '] ++ ·)

theorem toList_intercalate_comma (parts : List String) :
    (", ".intercalate parts).toList = rowChars (parts.map String.toList) := by
  rw [String.toList_intercalate]
  induction parts with
  | nil => rfl
  | cons part parts ih =>
    cases parts with
    | nil => simp [rowChars]
    | cons next parts =>
      rw [List.map_cons, List.map_cons, List.intercalate_cons_cons]
      rw [List.map_cons] at ih
      rw [ih]
      simp [rowChars]

theorem toList_render_list (items : List Json) : (render (.list items)).toList =
    '[' :: (rowChars (items.map fun j => j.render.toList) ++ [']']) := by
  rw [render, String.toList_append, String.toList_append, toList_intercalate_comma,
    renderItems_eq_map, List.map_map]
  rfl

/-- The characters of a field. -/
def fieldChars (f : String × Json) : List Char :=
  (renderText f.1).toList ++ ':' :: ' ' :: f.2.render.toList

theorem toList_render_object (fields : List (String × Json)) : (render (.object fields)).toList =
    '\x7b' :: (rowChars (fields.map fieldChars) ++ ['\x7d']) := by
  have hfield : (String.toList ∘ fun f : String × Json => renderText f.1 ++ ": " ++ f.2.render) =
      fieldChars := by
    funext f
    simp [fieldChars]
  rw [render, String.toList_append, String.toList_append, toList_intercalate_comma,
    renderFields_eq_map, List.map_map, hfield]
  rfl

theorem isPlain_of_mem_rowChars {parts : List (List Char)}
    (h : ∀ part ∈ parts, ∀ c ∈ part, isPlain c = true) : ∀ c ∈ rowChars parts, isPlain c = true := by
  cases parts with
  | nil => simp [rowChars]
  | cons part parts =>
    rw [List.forall_mem_cons] at h
    refine List.forall_mem_append.2 ⟨h.1, List.forall_mem_flatMap.2 fun part hpart => ?_⟩
    exact List.forall_mem_append.2 ⟨List.all_eq_true.1 rfl, h.2 part hpart⟩

/-- A value is written in printable ASCII characters. -/
theorem isPlain_of_mem_render (j : Json) : ∀ c ∈ j.render.toList, isPlain c = true := by
  induction j using Json.induction with
  | null => exact List.all_eq_true.1 rfl
  | bool b => cases b <;> exact List.all_eq_true.1 rfl
  | int n =>
    rw [render, toList_toString_int]
    exact (wholeNumeral n).isPlain_of_mem_chars
  | float x => exact isPlain_of_mem_renderFloat x
  | text s => exact isPlain_of_mem_renderText
  | list items ih =>
    rw [toList_render_list]
    refine List.forall_mem_cons.2 ⟨rfl, List.forall_mem_append.2 ⟨?_, List.forall_mem_singleton.2 rfl⟩⟩
    exact isPlain_of_mem_rowChars (List.forall_mem_map.2 ih)
  | object fields ih =>
    rw [toList_render_object]
    refine List.forall_mem_cons.2 ⟨rfl, List.forall_mem_append.2 ⟨?_, List.forall_mem_singleton.2 rfl⟩⟩
    refine isPlain_of_mem_rowChars (List.forall_mem_map.2 fun f hf => ?_)
    exact List.forall_mem_append.2 ⟨isPlain_of_mem_renderText,
      List.forall_mem_cons.2 ⟨rfl, List.forall_mem_cons.2 ⟨rfl, ih f hf⟩⟩⟩

/-! ### Indented parts -/

theorem isAscii_bracketed (level : Nat) {first last : String} {parts : List String}
    (hfirst : IsAscii first) (hlast : IsAscii last) (h : ∀ part ∈ parts, IsAscii part) :
    IsAscii (bracketed level first last parts) := by
  have hline (level : Nat) : IsAscii ("\n" ++ String.ofList (List.replicate (2 * level) ' ')) := by
    refine IsAscii.append (by decide) fun c hc => ?_
    rw [String.toList_ofList] at hc
    rw [List.eq_of_mem_replicate hc]
    decide
  have hcomma : IsAscii ("," ++ ("\n" ++ String.ofList (List.replicate (2 * (level + 1)) ' '))) :=
    IsAscii.append (by decide) (hline (level + 1))
  unfold bracketed
  dsimp only
  split
  · exact hfirst.append hlast
  · exact (((hfirst.append (hline (level + 1))).append (hcomma.intercalate h)).append
      (hline level)).append hlast

/-- A value that is written on many lines is written in ASCII. -/
theorem isAscii_renderIndented (j : Json) (level : Nat) : IsAscii (j.renderIndented level) := by
  induction j using Json.induction generalizing level with
  | null | bool | int | float | text => exact isAscii_of_isPlain (isPlain_of_mem_render _)
  | list items ih =>
    rw [renderIndented, indentedItems_eq_map]
    exact isAscii_bracketed level (by decide) (by decide)
      (List.forall_mem_map.2 fun j hj => ih j hj (level + 1))
  | object fields ih =>
    rw [renderIndented, indentedFields_eq_map]
    refine isAscii_bracketed level (by decide) (by decide) (List.forall_mem_map.2 fun f hf => ?_)
    exact ((isAscii_of_isPlain isPlain_of_mem_renderText).append (by decide)).append
      (ih f hf (level + 1))

/-! ### Reading on -/

/-- The characters in front of `rest` are read, and lead from one state to another one. -/
def Reads (r : Reading) (l : List Char) (r' : Reading) (rest : List Char) : Prop :=
  ∃ n, n + rest.length ≤ l.length ∧
    ∀ fuel, parseFrom (fuel + n) r l = parseFrom fuel r' rest

section Reads

variable {r r' r'' : Reading} {l rest rest' : List Char}

theorem Reads.trans (h : Reads r l r' rest) (h' : Reads r' rest r'' rest') :
    Reads r l r'' rest' := by
  obtain ⟨n, hn, hrun⟩ := h
  obtain ⟨n', hn', hrun'⟩ := h'
  refine ⟨n' + n, by omega, fun fuel => ?_⟩
  rw [← Nat.add_assoc, hrun, hrun']

/-- A blank in front changes nothing. -/
theorem Reads.blank {c : Char} (hc : isBlank c = true) (h : Reads r l r' rest) :
    Reads r (c :: l) r' rest := by
  obtain ⟨n, hn, hrun⟩ := h
  refine ⟨n, by rw [List.length_cons]; omega, fun fuel => ?_⟩
  rw [← hrun fuel]
  cases fuel + n with
  | zero => rfl
  | succ fuel => rw [parseFrom, parseFrom, List.dropWhile_cons_of_pos hc]

/-- No lexeme begins with a blank. -/
theorem lexeme?_blank {c : Char} (hc : isBlank c = true) (l : List Char) :
    lexeme? (c :: l) = none := by
  simp only [isBlank, Bool.or_eq_true, beq_iff_eq] at hc
  rcases hc with ((rfl | rfl) | rfl) | rfl <;> rfl

/-- A lexeme at the front has its effect. -/
theorem reads_lexeme {x : Lexeme} {front : List Char} (hfront : front ≠ [])
    (hlexeme : lexeme? (front ++ rest) = some (x, rest)) (hstep : r.step x = .ok r') :
    Reads r (front ++ rest) r' rest := by
  obtain ⟨c, tail, rfl⟩ := List.exists_cons_of_ne_nil hfront
  have hc : isBlank c = false := by
    cases hblank : isBlank c with
    | false => rfl
    | true =>
      rw [List.cons_append, lexeme?_blank hblank] at hlexeme
      cases hlexeme
  refine ⟨1, by simp; omega, fun fuel => ?_⟩
  have hdrop : (c :: tail ++ rest).dropWhile isBlank = c :: (tail ++ rest) :=
    List.dropWhile_cons_of_neg (by simp [hc])
  rw [List.cons_append] at hlexeme
  rw [parseFrom, hdrop]
  simp only [hlexeme, hstep]

/-- A character that is a lexeme by itself has its effect. -/
theorem reads_char {x : Lexeme} {c : Char} (hlexeme : lexeme? (c :: rest) = some (x, rest))
    (hstep : r.step x = .ok r') : Reads r (c :: rest) r' rest :=
  reads_lexeme (List.cons_ne_nil c []) hlexeme hstep

/-- A comma and the blank after it lead on to the next part of a container. -/
theorem reads_comma {frames : List Frame} (hstep : Reading.step ⟨.commaOrEnd, frames⟩ .comma = .ok r)
    (h : Reads r l r' rest) : Reads ⟨.commaOrEnd, frames⟩ ([',', ' '] ++ l) r' rest :=
  Reads.trans (reads_char rfl hstep) (Reads.blank rfl h)

end Reads

/-! ### Values that are read -/

/-- A value may come next. -/
def WantsValue (e : Expectation) : Prop := e = .value ∨ e = .valueOrEnd

/-- A value that is written is read wherever a value may stand, if it is not too deep there. -/
def IsRead (j : Json) : Prop :=
  ∀ (e : Expectation) (frames : List Frame) (r' : Reading) (rest : List Char), WantsValue e →
    frames.length + j.depth ≤ nestingLimit → EndsNumber rest →
    Reading.complete j.reread frames = .ok r' →
      Reads ⟨e, frames⟩ (j.render.toList ++ rest) r' rest

section Values

variable {e : Expectation} {frames : List Frame} {r' : Reading} {rest : List Char}

theorem step_scalar (he : WantsValue e) (j : Json) (frames : List Frame) :
    Reading.step ⟨e, frames⟩ (.scalar j) = Reading.complete j frames := by
  rcases he with rfl | rfl <;> rfl

theorem step_whole (he : WantsValue e) (negative : Bool) (digits : List Char)
    (frames : List Frame) : Reading.step ⟨e, frames⟩ (.whole negative digits) =
      Reading.completeWhole negative digits frames := by
  rcases he with rfl | rfl <;> rfl

/-- A container is opened where a value may stand, if there are not too many around it. -/
theorem step_open (he : WantsValue e) (h : frames.length < nestingLimit) :
    Reading.step ⟨e, frames⟩ .openList = .ok ⟨.valueOrEnd, .list [] :: frames⟩ ∧
      Reading.step ⟨e, frames⟩ .openObject = .ok ⟨.nameOrEnd, .object [] :: frames⟩ := by
  have henter (expected : Expectation) (frame : Frame) :
      Reading.enter ⟨e, frames⟩ expected frame = .ok ⟨expected, frame :: frames⟩ := by
    rw [Reading.enter, if_neg (Nat.not_le_of_gt h)]
  rw [← henter, ← henter]
  rcases he with rfl | rfl <;> exact ⟨rfl, rfl⟩

/-- A value that is one lexeme is read. -/
theorem isRead_scalar {j : Json} (hfront : j.render.toList ≠ [])
    (hlexeme : ∀ rest, EndsNumber rest →
      lexeme? (j.render.toList ++ rest) = some (.scalar j.reread, rest)) : IsRead j := by
  intro e frames r' rest he _ hrest hcomplete
  exact reads_lexeme hfront (hlexeme rest hrest) ((step_scalar he j.reread frames).trans hcomplete)

theorem endsNumber_cons {c : Char} (hc : c = ',' ∨ c = ']' ∨ c = '\x7d') (l : List Char) :
    EndsNumber (c :: l) := by
  rintro d ⟨⟩
  rcases hc with rfl | rfl | rfl <;> decide

/-- What follows a part of a row ends a number. -/
theorem endsNumber_row {last : Char} (hlast : last = ']' ∨ last = '\x7d')
    (parts : List (List Char)) (rest : List Char) :
    EndsNumber (parts.flatMap ([',', ' '] ++ ·) ++ last :: rest) := by
  cases parts with
  | nil => exact endsNumber_cons (.inr hlast) rest
  | cons part parts => exact endsNumber_cons (.inl rfl) _

/-- The other items of a list are read after the first one. -/
theorem reads_items {items : List Json} (h : ∀ j ∈ items, IsRead j)
    (hdepth : ∀ j ∈ items, frames.length + 1 + j.depth ≤ nestingLimit) (done : List Json)
    (hcomplete : Reading.complete (.list (done.reverse ++ items.map reread)) frames = .ok r') :
    Reads ⟨.commaOrEnd, .list done :: frames⟩
      ((items.map fun j => j.render.toList).flatMap ([',', ' '] ++ ·) ++ ']' :: rest) r' rest := by
  induction items generalizing done with
  | nil =>
    rw [List.map_nil, List.append_nil] at hcomplete
    exact reads_char rfl hcomplete
  | cons j items ih =>
    rw [List.forall_mem_cons] at h hdepth
    rw [List.map_cons, List.flatMap_cons, List.append_assoc, List.append_assoc]
    refine reads_comma rfl (Reads.trans (h.1 .value (.list done :: frames) _ _ (.inl rfl) hdepth.1
      (endsNumber_row (.inl rfl) _ rest) rfl) ?_)
    exact ih h.2 hdepth.2 (j.reread :: done) (by simpa using hcomplete)

theorem isRead_list {items : List Json} (h : ∀ j ∈ items, IsRead j) : IsRead (.list items) := by
  intro e frames r' rest he hdepth _ hcomplete
  have hitems : ∀ j ∈ items, frames.length + 1 + j.depth ≤ nestingLimit := by
    intro j hj
    have := itemsDepth_le.1 (Nat.le_refl _) j hj
    rw [depth] at hdepth
    omega
  have hopen := (step_open he (show frames.length < nestingLimit by rw [depth] at hdepth; omega)).1
  rw [toList_render_list, List.cons_append, List.append_assoc]
  refine Reads.trans (reads_char rfl hopen) ?_
  rw [reread, rereadItems_eq_map] at hcomplete
  cases items with
  | nil => exact reads_char rfl hcomplete
  | cons j items =>
    rw [List.forall_mem_cons] at h hitems
    rw [List.map_cons, rowChars, List.append_assoc]
    refine Reads.trans (h.1 .valueOrEnd (.list [] :: frames) _ _ (.inr rfl) hitems.1
      (endsNumber_row (.inl rfl) _ rest) rfl) ?_
    exact reads_items h.2 hitems.2 [j.reread] hcomplete

/-! ### Objects -/

/-- A name may come next. -/
def WantsName (e : Expectation) : Prop := e = .name ∨ e = .nameOrEnd

/-- A field is read where a name may stand. -/
theorem reads_field {f : String × Json} (h : IsRead f.2)
    (hdepth : frames.length + 1 + f.2.depth ≤ nestingLimit) (he : WantsName e)
    (hrest : EndsNumber rest) (done : List (String × Json)) :
    Reads ⟨e, .object done :: frames⟩ (fieldChars f ++ rest)
      ⟨.commaOrEnd, .object ((joined f.1, f.2.reread) :: done) :: frames⟩ rest := by
  have hstep : Reading.step ⟨e, .object done :: frames⟩ (.scalar (.text (joined f.1))) =
      .ok ⟨.colon, .field done (joined f.1) :: frames⟩ := by
    rcases he with rfl | rfl <;> rfl
  rw [fieldChars, List.append_assoc]
  refine Reads.trans (reads_lexeme (renderText_ne_nil f.1)
    (lexeme?_renderText f.1 _) hstep) ?_
  refine Reads.trans (reads_char rfl rfl) (Reads.blank rfl ?_)
  exact h .value (.field done (joined f.1) :: frames) _ rest (.inl rfl) hdepth hrest rfl

/-- The other fields of an object are read after the first one. -/
theorem reads_fields {fields : List (String × Json)} (h : ∀ f ∈ fields, IsRead f.2)
    (hdepth : ∀ f ∈ fields, frames.length + 1 + f.2.depth ≤ nestingLimit)
    (done : List (String × Json))
    (hcomplete : Reading.complete
      (Reading.closeObject ((rereadFields fields).reverse ++ done)) frames = .ok r') :
    Reads ⟨.commaOrEnd, .object done :: frames⟩
      ((fields.map fieldChars).flatMap ([',', ' '] ++ ·) ++ '\x7d' :: rest) r' rest := by
  induction fields generalizing done with
  | nil =>
    exact reads_char rfl hcomplete
  | cons f fields ih =>
    rw [List.forall_mem_cons] at h hdepth
    rw [List.map_cons, List.flatMap_cons, List.append_assoc, List.append_assoc]
    refine reads_comma rfl (Reads.trans (reads_field h.1 hdepth.1 (.inl rfl)
      (endsNumber_row (.inr rfl) _ rest) done) ?_)
    exact ih h.2 hdepth.2 _ (by simpa [rereadFields] using hcomplete)

theorem isRead_object {fields : List (String × Json)} (h : ∀ f ∈ fields, IsRead f.2) :
    IsRead (.object fields) := by
  intro e frames r' rest he hdepth _ hcomplete
  have hfields : ∀ f ∈ fields, frames.length + 1 + f.2.depth ≤ nestingLimit := by
    intro f hf
    have := fieldsDepth_le.1 (Nat.le_refl _) f hf
    rw [depth] at hdepth
    omega
  have hopen := (step_open he (show frames.length < nestingLimit by rw [depth] at hdepth; omega)).2
  rw [toList_render_object, List.cons_append, List.append_assoc]
  refine Reads.trans (reads_char rfl hopen) ?_
  rw [reread] at hcomplete
  cases fields with
  | nil => exact reads_char rfl hcomplete
  | cons f fields =>
    rw [List.forall_mem_cons] at h hfields
    rw [List.map_cons, rowChars, List.append_assoc]
    refine Reads.trans (reads_field h.1 hfields.1 (.inr rfl)
      (endsNumber_row (.inr rfl) _ rest) []) ?_
    exact reads_fields h.2 hfields.2 _ (by simpa [rereadFields] using hcomplete)

/-! ### All values -/

theorem isRead_int {n : Int} (hlong : Decimal.isLong n = false) : IsRead (.int n) := by
  intro e frames r' rest he _ hrest hcomplete
  have hfront : (toString n).toList ≠ [] := by
    rw [toList_toString_int]
    exact (wholeNumeral n).chars_ne_nil
  refine reads_lexeme hfront (lexeme?_toString_int n hrest) ?_
  rw [step_whole he, Reading.completeWhole,
    if_neg (Nat.not_lt_of_ge (Decimal.length_toDigits_of_not_isLong hlong))]
  show Reading.complete (.int _) frames = _
  rw [int_of_digits]
  exact hcomplete

/-- A value without numbers that are too long is read. -/
theorem isRead {j : Json} (hlong : j.toValue.hasLongNumber = false) : IsRead j := by
  induction j using Json.induction with
  | null => exact isRead_scalar (by decide) fun _ _ => rfl
  | bool b =>
    cases b with
    | false => exact isRead_scalar (by decide) fun _ _ => rfl
    | true => exact isRead_scalar (by decide) fun _ _ => rfl
  | int n => exact isRead_int hlong
  | float x =>
    exact isRead_scalar (renderFloat_ne_nil _) fun rest hrest => lexeme?_renderFloat x hrest
  | text s => exact isRead_scalar (renderText_ne_nil _) fun rest _ => lexeme?_renderText s rest
  | list items ih =>
    rw [toValue, Value.hasLongNumber, itemsToValues_long] at hlong
    exact isRead_list fun j hj => ih j hj (hlong j hj)
  | object fields ih =>
    rw [toValue, Value.hasLongNumber, fieldsToEntries_long] at hlong
    exact isRead_object fun f hf => ih f hf (hlong f hf)

end Values

theorem endsNumber_of_blank {blanks : List Char} (h : ∀ c ∈ blanks, isBlank c = true) :
    EndsNumber blanks := by
  intro c hc
  have hblank := h c (List.mem_of_mem_head? hc)
  simp only [isBlank, Bool.or_eq_true, beq_iff_eq] at hblank
  rcases hblank with ((rfl | rfl) | rfl) | rfl <;> decide

/-- What is read of a value that is written with blanks behind it, if its numbers are not too long
and its containers are not too deep. -/
theorem parse_render_append {j : Json} (hlong : j.toValue.hasLongNumber = false)
    (hdepth : j.depth ≤ nestingLimit) {blanks : List Char} (h : ∀ c ∈ blanks, isBlank c = true) :
    parse (j.render.toList ++ blanks) = .ok j.reread := by
  obtain ⟨n, hn, hrun⟩ := isRead hlong .value [] ⟨.nothing j.reread, []⟩ blanks (.inl rfl)
    (by rw [List.length_nil]; omega) (endsNumber_of_blank h) rfl
  obtain ⟨fuel, hfuel⟩ : ∃ fuel, (j.render.toList ++ blanks).length + 1 = fuel + 1 + n :=
    ⟨(j.render.toList ++ blanks).length - n, by omega⟩
  rw [parse, hfuel, hrun, parseFrom, List.dropWhile_eq_nil_iff.2 h]

/-- What is read of a value that is written, if its numbers are not too long and its containers are
not too deep. -/
theorem parse_render_reread {j : Json} (hlong : j.toValue.hasLongNumber = false)
    (hdepth : j.depth ≤ nestingLimit) : parse j.render.toList = .ok j.reread := by
  rw [← parse_render_append hlong hdepth (List.forall_mem_nil _), List.append_nil]

end FormulaBook.Json
