/-!
# Places in a YAML text

A YAML text is read from left to right. A cursor is the text that is still to be read with the
number of characters before it, its line and its column.

* `Yaml.Error`: why a text is not loaded;
* `Yaml.isPrintable`: the characters that a text may hold;
* `Yaml.Cursor`: a place, with `Cursor.peek`, `Cursor.skip` and `Cursor.takeWhile`;
* `Cursor.lineBreak?`: the end of a line.
-/

namespace FormulaBook.Yaml

/-- Why a text is not loaded. -/
inductive Error where
  /-- The text is not YAML, or has no value of the plain types. -/
  | malformed
  /-- A scalar has not the form of its type; the words say why. -/
  | badValue (words : String)
  /-- A scalar names no truth value. -/
  | unknownTruth (word : String)
  /-- A scalar cannot be converted at all. -/
  | unsuitable
  deriving DecidableEq, Repr

/-- The characters that a text may hold. -/
def isPrintable (c : Char) : Bool :=
  let n := c.toNat
  n == 0x09 || n == 0x0A || n == 0x0D || (0x20 ≤ n && n ≤ 0x7E) || n == 0x85 ||
    (0xA0 ≤ n && n ≤ 0xFFFD) || 0x10000 ≤ n

/-- The character that is seen at the end of a text; no text holds it. -/
def endMark : Char := '\x00'

/-- The mark that may stand at the beginning of a text and takes no column. -/
def orderMark : Char := '\uFEFF'

/-- The characters that end a line. -/
def isBreak (c : Char) : Bool := c == '\n' || c == '\u0085' || c == '\u2028' || c == '\u2029'

/-- The end of a line or of the text. -/
def isBreakOrEnd (c : Char) : Bool := isBreak c || c == endMark

/-- A blank, or the end of a line or of the text. -/
def isSpaceOrEnd (c : Char) : Bool := c == ' ' || c == '\t' || isBreakOrEnd c

/-- A blank other than a tab, or the end of a line or of the text. -/
def isGap (c : Char) : Bool := c == ' ' || isBreakOrEnd c

/-- The letters of names. -/
def isNameLetter (c : Char) : Bool := c.isAlphanum || c == '-' || c == '_'

/-- A place in a text. -/
structure Cursor where
  rest : List Char
  index : Nat := 0
  line : Nat := 0
  column : Nat := 0

namespace Cursor

/-- The character after `n` others. -/
def peekAt (p : Cursor) (n : Nat) : Char := (p.rest[n]?).getD endMark

/-- The next character. -/
def peek (p : Cursor) : Char := p.rest.headD endMark

/-- The place after the next character. -/
def next (p : Cursor) : Cursor :=
  match p.rest with
  | [] => p
  | c :: rest =>
    if isBreak c then ⟨rest, p.index + 1, p.line + 1, 0⟩
    else ⟨rest, p.index + 1, p.line, if c == orderMark then p.column else p.column + 1⟩

/-- The place after `n` characters. -/
def skip : Nat → Cursor → Cursor
  | 0, p => p
  | n + 1, p => skip n p.next

/-- The characters that satisfy `f`, up to the first that does not, and the place after them. -/
def takeWhile (f : Char → Bool) (p : Cursor) : List Char × Cursor :=
  let chars := p.rest.takeWhile f
  (chars, p.skip chars.length)

/-- The place after the characters that satisfy `f`. -/
def skipWhile (f : Char → Bool) (p : Cursor) : Cursor := (p.takeWhile f).2

/-- The end of a line: what it stands for in a text of many lines, and the place after it. -/
def lineBreak? (p : Cursor) : Option (Char × Cursor) :=
  let c := p.peek
  if c == '\n' || c == '\u0085' then some ('\n', p.next)
  else if isBreak c then some (c, p.next)
  else none

/-- Whether three dashes, or three points, stand here before a blank. -/
def isMark (mark : Char) (p : Cursor) : Bool :=
  (p.rest.take 3 == [mark, mark, mark]) && isSpaceOrEnd (p.peekAt 3)

/-- Whether the mark for the beginning or for the end of a document stands here. -/
def isDocumentMark (p : Cursor) : Bool := p.isMark '-' || p.isMark '.'

/-- The place after a comment, if one begins here. -/
def skipComment (p : Cursor) : Cursor :=
  if p.peek == '#' then p.skipWhile (!isBreakOrEnd ·) else p

/-- The next line, where only blanks and a comment may stand before it. -/
def restOfLine (p : Cursor) : Except Error Cursor :=
  let p := (p.skipWhile (· == ' ')).skipComment
  match p.lineBreak? with
  | some (_, p) => .ok p
  | none => if p.peek == endMark then .ok p else .error .malformed

end Cursor

end FormulaBook.Yaml
