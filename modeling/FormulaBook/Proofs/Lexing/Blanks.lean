import FormulaBook.Proofs.Lexing.Language

/-!
# Kinds of blanks

A text without placeholders, in which every blank is one that may stand between tokens, is cut into
the same tokens if each of its blanks is made a space: the tokens stand at the same places and have
the same texts, and a text that is not cut has its invalid character at the same place. A text with
any other blank is not cut.

* `isStray`: a blank that may not stand between tokens;
* `asSpace`, `withSpaces`: a text with a space in the place of each blank;
* `lexeme?_map_asSpace`, `scan_map_asSpace`, `tokenize_withSpaces`: the lexeme at the front, the
  scan and the tokens with spaces;
* `tokenize_of_isStray`: a text with a stray blank.
-/

namespace FormulaBook

open Text

/-- A blank that may not stand between tokens. -/
def isStray (c : Char) : Bool := isBlank c && !isLayout c

/-- A space in the place of a blank; all else unchanged. -/
def asSpace (c : Char) : Char := if isBlank c then ' ' else c

/-- A text with a space in the place of each blank. -/
def withSpaces (s : String) : String := String.ofList (s.toList.map asSpace)

@[simp] theorem toList_withSpaces (s : String) : (withSpaces s).toList = s.toList.map asSpace :=
  String.toList_ofList

/-! ### Characters -/

section Characters

variable {c : Char}

theorem asSpace_of_isBlank (h : isBlank c = true) : asSpace c = ' ' := if_pos h

theorem asSpace_of_not_isBlank (h : isBlank c = false) : asSpace c = c := by simp [asSpace, h]

theorem isBlank_asSpace (c : Char) : isBlank (asSpace c) = isBlank c := by
  cases h : isBlank c with
  | true =>
    rw [asSpace_of_isBlank h]
    rfl
  | false => rw [asSpace_of_not_isBlank h, h]

theorem map_asSpace_of_forall {l : List Char} (h : ∀ c ∈ l, isBlank c = false) :
    l.map asSpace = l :=
  (List.map_congr_left fun c hc => asSpace_of_not_isBlank (h c hc)).trans (List.map_id l)

theorem isStray_eq_false : isStray c = false ↔ (isBlank c = true → isLayout c = true) := by
  simp [isStray]

theorem not_isBlank_of_not_isStray (h : isStray c = false) (hlayout : isLayout c = false) :
    isBlank c = false := by
  simpa [isStray, hlayout] using h

theorem not_isStray_of_not_isBlank (h : isBlank c = false) : isStray c = false := by
  simp [isStray, h]

theorem isLayout_asSpace (h : isStray c = false) : isLayout (asSpace c) = isLayout c := by
  cases hblank : isBlank c with
  | true =>
    rw [asSpace_of_isBlank hblank, isStray_eq_false.1 h hblank]
    rfl
  | false => rw [asSpace_of_not_isBlank hblank]

/-- What holds of no blank is told of a text as well with spaces. -/
theorem apply_asSpace {p : Char → Bool} (h : ∀ c, p c = true → isBlank c = false) (c : Char) :
    p (asSpace c) = p c := by
  cases hblank : isBlank c with
  | true =>
    have hnot : ∀ d, isBlank d = true → p d = false := fun d hd =>
      Bool.eq_false_iff.2 fun hp => by simp [h d hp] at hd
    rw [hnot c hblank, hnot (asSpace c) ((isBlank_asSpace c).trans hblank)]
  | false => rw [asSpace_of_not_isBlank hblank]

end Characters

/-! ### The characters of a lexeme -/

/-- A lexeme that is neither a run of blanks nor a placeholder holds no blank. -/
theorem not_isBlank_of_isLexeme {kind : TokenKind} {l : List Char} (h : IsLexeme (some kind) l)
    (hopen : '{' ∉ l) : ∀ c ∈ l, isBlank c = false := by
  cases h with
  | number _ hl => exact fun c hc => not_isBlank_of_isNumberChar (hl c hc)
  | identifier hstart hl =>
    exact List.forall_mem_cons.2 ⟨not_isBlank_of_isNameChar (isNameChar_of_isNameStart hstart),
      fun c hc => not_isBlank_of_isNameChar (hl c hc)⟩
  | operator hc => exact List.forall_mem_singleton.2 (not_isBlank_of_isOperatorChar hc)
  | lparen | rparen => exact List.forall_mem_singleton.2 rfl
  | placeholder => exact absurd List.mem_cons_self hopen

/-- A lexeme that is no placeholder holds no stray blank. -/
theorem not_isStray_of_isLexeme {kind : Option TokenKind} {l : List Char} (h : IsLexeme kind l)
    (hopen : '{' ∉ l) : ∀ c ∈ l, isStray c = false := by
  intro c hc
  cases kind with
  | none =>
    cases h with
    | blank _ hl => exact isStray_eq_false.2 fun _ => hl c hc
  | some kind => exact not_isStray_of_not_isBlank (not_isBlank_of_isLexeme h hopen c hc)

/-! ### Texts with spaces -/

section Spaces

variable {l : List Char}

theorem takeWhile_map_of_forall {f : Char → Char} {p : Char → Bool}
    (h : ∀ c ∈ l, p (f c) = p c) : (l.map f).takeWhile p = (l.takeWhile p).map f := by
  induction l with
  | nil => rfl
  | cons c l ih =>
    rw [List.forall_mem_cons] at h
    rw [List.map_cons, List.takeWhile_cons, List.takeWhile_cons, h.1, ih h.2]
    split <;> rfl

theorem dropWhile_map_of_forall {f : Char → Char} {p : Char → Bool}
    (h : ∀ c ∈ l, p (f c) = p c) : (l.map f).dropWhile p = (l.dropWhile p).map f := by
  induction l with
  | nil => rfl
  | cons c l ih =>
    rw [List.forall_mem_cons] at h
    rw [List.map_cons, List.dropWhile_cons, List.dropWhile_cons, h.1, ih h.2]
    split <;> rfl

/-- A lexeme with a space in the place of each blank, also in what follows it. -/
def Lexeme.withSpaces (x : Lexeme) : Lexeme := ⟨x.kind, x.chars.map asSpace, x.rest.map asSpace⟩

theorem Lexeme.run_map_asSpace (kind : Option TokenKind) {p : Char → Bool} (c : Char)
    (h : ∀ d ∈ l, p (asSpace d) = p d) :
    Lexeme.run kind p (asSpace c) (l.map asSpace) = (Lexeme.run kind p c l).withSpaces := by
  rw [Lexeme.run, takeWhile_map_of_forall h, dropWhile_map_of_forall h]
  rfl

/-- The lexeme at the front of a text is still there when blanks are made spaces. -/
theorem lexeme?_map_asSpace (hopen : '{' ∉ l) (hstray : ∀ c ∈ l, isStray c = false) :
    lexeme? (l.map asSpace) = (lexeme? l).map Lexeme.withSpaces := by
  cases l with
  | nil => rfl
  | cons c l =>
    obtain ⟨hfirst, hrest⟩ := List.forall_mem_cons.1 hstray
    have hrun (kind : Option TokenKind) {p : Char → Bool} (h : ∀ d ∈ l, p (asSpace d) = p d) :=
      Lexeme.run_map_asSpace kind c h
    rw [List.map_cons, lexeme?, lexeme?, isLayout_asSpace hfirst]
    split
    · exact congrArg some (hrun none fun d hd => isLayout_asSpace (hrest d hd))
    rename_i hlayout
    have hc : asSpace c = c :=
      asSpace_of_not_isBlank (not_isBlank_of_not_isStray hfirst (Bool.eq_false_iff.2 hlayout))
    rw [hc] at hrun ⊢
    split
    · exact congrArg some (hrun _ fun d _ => apply_asSpace (fun c => not_isBlank_of_isNumberChar) d)
    split
    · exact congrArg some (hrun _ fun d _ => apply_asSpace (fun c => not_isBlank_of_isNameChar) d)
    have hsingle (kind : TokenKind) : (⟨some kind, [c], l.map asSpace⟩ : Lexeme) =
        Lexeme.withSpaces ⟨some kind, [c], l⟩ := by
      rw [Lexeme.withSpaces, List.map_singleton, hc]
    split
    · exact congrArg some (hsingle .operator)
    split
    · exact congrArg some (hsingle .lparen)
    split
    · exact congrArg some (hsingle .rparen)
    · have hnot : c ≠ '{' := fun h => hopen (h ▸ List.mem_cons_self)
      rw [placeholder?_cons_eq_none hnot, placeholder?_cons_eq_none hnot]
      rfl

/-- A lexeme has its size and its token when blanks are made spaces. -/
theorem chars_map_asSpace {kind : Option TokenKind} (h : IsLexeme kind l) (hopen : '{' ∉ l) :
    size (l.map asSpace) = size l ∧ (kind ≠ none → l.map asSpace = l) := by
  cases kind with
  | none =>
    cases h with
    | blank _ hl =>
      have hspaces : ∀ c ∈ l.map asSpace, isLayout c = true := by
        intro d hd
        obtain ⟨c, hc, rfl⟩ := List.mem_map.1 hd
        have hblank := isBlank_of_isLayout (hl c hc)
        rw [asSpace_of_isBlank hblank]
        rfl
      rw [size_eq_length_of_isLayout hl, size_eq_length_of_isLayout hspaces, List.length_map]
      exact ⟨rfl, fun h => absurd rfl h⟩
  | some kind =>
    have hsame := map_asSpace_of_forall (not_isBlank_of_isLexeme h hopen)
    exact ⟨congrArg size hsame, fun _ => hsame⟩

/-- The scan finds the same tokens, or the same invalid character, when blanks are made spaces. -/
theorem scan_map_asSpace {l : List Char} (hopen : '{' ∉ l) (hstray : ∀ c ∈ l, isStray c = false)
    (position : Nat) : scan position (l.map asSpace) = scan position l := by
  have hfront := lexeme?_map_asSpace hopen hstray
  cases hx : lexeme? l with
  | none =>
    rw [hx] at hfront
    cases l with
    | nil => rfl
    | cons c l => rw [scan_of_lexeme?_eq_none hx, List.map_cons, scan_of_lexeme?_eq_none hfront]
  | some x =>
    rw [hx] at hfront
    have hsplit := lexeme?_append hx
    have hopen' : '{' ∉ x.chars ∧ '{' ∉ x.rest := by
      rwa [← hsplit, List.mem_append, not_or] at hopen
    have hrest : ∀ c ∈ x.rest, isStray c = false := fun c hc =>
      hstray c (hsplit ▸ List.mem_append_right _ hc)
    obtain ⟨hsize, hkept⟩ := chars_map_asSpace (isLexeme_of_lexeme? hx) hopen'.1
    -- What follows the lexeme is shorter.
    have := lexeme?_length hx
    have ih := scan_map_asSpace hopen'.2 hrest (position + size x.chars)
    rw [scan_of_lexeme? hx, scan_of_lexeme? hfront]
    simp only [Lexeme.withSpaces, hsize, ih]
    cases hk : x.kind with
    | none => rfl
    | some kind => rw [hkept (by simp [hk])]
termination_by l.length

end Spaces

/-! ### Tokens -/

section Tokens

variable {text : String}

/-- A text without placeholders and stray blanks is cut in the same way when its blanks are made
spaces. -/
theorem tokenize_withSpaces (hopen : '{' ∉ text.toList)
    (hstray : ∀ c ∈ text.toList, isStray c = false) :
    tokenize (withSpaces text) = tokenize text := by
  rw [tokenize, tokenize, toList_withSpaces, scan_map_asSpace hopen hstray]

/-- A text without placeholders is not cut if it has a stray blank. -/
theorem tokenize_of_isStray (hopen : '{' ∉ text.toList) {c : Char} (hc : c ∈ text.toList)
    (hstray : isStray c = true) :
    ∃ place : Nat, tokenize text = .error (.invalidCharacter (some place)) := by
  cases htokens : tokenize text with
  | error e =>
    obtain ⟨place, rfl⟩ := tokenize_eq_error htokens
    exact ⟨place, rfl⟩
  | ok tokens =>
    -- A row of lexemes has no stray blank in it.
    obtain ⟨pieces, hspell, -, -⟩ := tokenize_eq_ok.1 htokens
    rw [← hspell] at hopen hc
    obtain ⟨p, hp, hmem⟩ := List.mem_flatMap.1 hc
    have hinside : '{' ∉ p.chars := fun h => hopen (List.mem_flatMap.2 ⟨p, hp, h⟩)
    rw [not_isStray_of_isLexeme p.isLexeme hinside c hmem] at hstray
    cases hstray

end Tokens

end FormulaBook
