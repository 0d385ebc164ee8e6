import FormulaBook.Token.Basic
import FormulaBook.Text.Blank
import FormulaBook.Text.CodePoint
import FormulaBook.Text.DecimalDigit

/-!
# From text to tokens

A text is cut into lexemes from left to right, each as long as it can be. Blanks are dropped. A
number and a name that touch are refused, and so is every character that begins no lexeme.

* `lexeme?`: the lexeme at the front of a text;
* `scan`: the tokens of a text;
* `tokenize`: the tokens, unless two words touch;
* `placeholder?`, `placeholderNames`: placeholders, also in a text that is no row of tokens.
-/

namespace FormulaBook

open Text

/-- The characters of a literal number. -/
def isNumberChar (c : Char) : Bool := isDigit c || c == '.'

/-- The characters that begin a name. -/
def isNameStart (c : Char) : Bool := 'A' ≤ c && c ≤ 'Z'

/-- The characters that continue a name. -/
def isNameChar (c : Char) : Bool := isNameStart c || isDigit c || c == '_'

/-- The four operators. -/
def isOperatorChar (c : Char) : Bool := c == '+' || c == '-' || c == '*' || c == '/'

/-! ### Placeholders -/

/-- A name in `{{#` and `}}` at the front of a text, and what follows it. The name is not empty
and holds no closing brace. -/
def placeholder? : List Char → Option (List Char × List Char)
  | '{' :: '{' :: '#' :: l =>
    match l.dropWhile (· != '}') with
    | '}' :: '}' :: rest =>
      let name := l.takeWhile (· != '}')
      if name.isEmpty then none else some (name, rest)
    | _ => none
  | _ => none

/-- The written form of a placeholder. -/
def placeholderChars (name : List Char) : List Char := '{' :: '{' :: '#' :: name ++ ['}', '}']

theorem placeholder?_append {l name rest : List Char} (h : placeholder? l = some (name, rest)) :
    placeholderChars name ++ rest = l := by
  unfold placeholder? at h
  split at h
  · rename_i l
    split at h
    · rename_i tail heq
      dsimp only at h
      split at h
      · cases h
      · obtain ⟨rfl, rfl⟩ := Prod.mk.inj (Option.some.inj h)
        have := List.takeWhile_append_dropWhile (p := (· != '}')) (l := l)
        rw [heq] at this
        simp [placeholderChars, this]
    · cases h
  · cases h

theorem placeholder?_length {l name rest : List Char} (h : placeholder? l = some (name, rest)) :
    rest.length < l.length := by
  rw [← placeholder?_append h]
  simp [placeholderChars]
  omega

/-- The names of the placeholders in a text, from left to right. -/
def placeholderNames (l : List Char) : List String :=
  match h : placeholder? l with
  | some (name, rest) =>
    have := placeholder?_length h
    String.ofList name :: placeholderNames rest
  | none =>
    match l with
    | [] => []
    | _ :: rest => placeholderNames rest
termination_by l.length

/-! ### Lexemes -/

/-- The front of a text: a run of blanks if `kind` is absent, and otherwise the characters of a
token. -/
structure Lexeme where
  kind : Option TokenKind
  chars : List Char
  rest : List Char

/-- The lexeme that begins with `c` and goes on while `p` holds. -/
def Lexeme.run (kind : Option TokenKind) (p : Char → Bool) (c : Char) (l : List Char) : Lexeme :=
  ⟨kind, c :: l.takeWhile p, l.dropWhile p⟩

/-- The lexeme at the front of a text. -/
def lexeme? (l : List Char) : Option Lexeme :=
  match l with
  | [] => none
  | c :: rest =>
    if isLayout c then some (.run none isLayout c rest)
    else if isNumberChar c then some (.run (some .number) isNumberChar c rest)
    else if isNameStart c then some (.run (some .identifier) isNameChar c rest)
    else if isOperatorChar c then some ⟨some .operator, [c], rest⟩
    else if c == '(' then some ⟨some .lparen, [c], rest⟩
    else if c == ')' then some ⟨some .rparen, [c], rest⟩
    else (placeholder? l).map fun (name, rest) =>
      ⟨some .placeholder, placeholderChars name, rest⟩

theorem lexeme?_append {l : List Char} {x : Lexeme} (h : lexeme? l = some x) :
    x.chars ++ x.rest = l := by
  unfold lexeme? at h
  split at h
  · cases h
  · rename_i c rest
    have run (kind p) : (Lexeme.run kind p c rest).chars ++ (Lexeme.run kind p c rest).rest =
        c :: rest := by simp [Lexeme.run]
    repeat' split at h
    all_goals try (cases h; first | exact run _ _ | rfl)
    obtain ⟨⟨name, tail⟩, hp, rfl⟩ := Option.map_eq_some_iff.1 h
    exact placeholder?_append hp

theorem lexeme?_chars_ne_nil {l : List Char} {x : Lexeme} (h : lexeme? l = some x) :
    x.chars ≠ [] := by
  unfold lexeme? at h
  split at h
  · cases h
  · repeat' split at h
    all_goals try (cases h; simp [Lexeme.run])
    obtain ⟨⟨name, tail⟩, -, rfl⟩ := Option.map_eq_some_iff.1 h
    simp [placeholderChars]

theorem lexeme?_length {l : List Char} {x : Lexeme} (h : lexeme? l = some x) :
    x.rest.length < l.length := by
  have := List.length_pos_iff.2 (lexeme?_chars_ne_nil h)
  rw [← lexeme?_append h, List.length_append]
  omega

/-! ### Rows of tokens -/

/-- The tokens of a text that begins at `position`, words that touch included. -/
def scan (position : Nat) (l : List Char) : Except EvalError (List Token) :=
  match l with
  | [] => .ok []
  | c :: tail =>
    match h : lexeme? (c :: tail) with
    | none => .error (.invalidCharacter (some position))
    | some x =>
      have := lexeme?_length h
      match scan (position + size x.chars) x.rest, x.kind with
      | .error e, _ => .error e
      | .ok tokens, none => .ok tokens
      | .ok tokens, some kind =>
        .ok ({ kind, text := String.ofList x.chars, position := some position } :: tokens)
termination_by l.length
decreasing_by exact this

namespace Token

/-- The position after a token. -/
def stop? (t : Token) : Option Int := t.position.map (· + size t.text.toList)

/-- Whether `b` is a word that begins where the word `a` ends. -/
def touches (a b : Token) : Bool := a.kind.isWord && b.kind.isWord && a.stop? == b.position

end Token

/-- The first word that touches the word before it. -/
def touching? : List Token → Option Token
  | a :: b :: rest => if a.touches b then some b else touching? (b :: rest)
  | _ => none

/-- The tokens of a text. -/
def tokenize (text : String) : Except EvalError (List Token) :=
  match scan 0 text.toList with
  | .error e => .error e
  | .ok tokens =>
    match touching? tokens with
    | some t => .error (.invalidCharacter t.position)
    | none => .ok tokens

end FormulaBook
