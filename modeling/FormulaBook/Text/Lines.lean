/-!
# Lines

A text is cut into lines at every character that Unicode treats as a line boundary, not only at
the line feed; a carriage return with a line feed after it is one boundary.

* `isLineBreak`: the boundaries;
* `lines`: the lines of a text, without their boundaries. A boundary at the end opens no line;
* `unixLines`: a text whose lines end with line feeds only.
-/

namespace FormulaBook.Text

/-- The characters that end a line. -/
def isLineBreak (c : Char) : Bool :=
  let n := c.toNat
  (0x0A ≤ n && n ≤ 0x0D) || (0x1C ≤ n && n ≤ 0x1E) || n == 0x85 || n == 0x2028 || n == 0x2029

/-- The lines of a text, after the finished lines `done` and the characters `line` of the line
that is open, both last first. -/
def linesAfter (done : List (List Char)) (line : List Char) : List Char → List (List Char)
  | [] => (if line.isEmpty then done else line.reverse :: done).reverse
  | '\r' :: '\n' :: rest => linesAfter (line.reverse :: done) [] rest
  | c :: rest =>
    if isLineBreak c then linesAfter (line.reverse :: done) [] rest
    else linesAfter done (c :: line) rest

/-- The lines of a text. -/
def lines (text : List Char) : List (List Char) := linesAfter [] [] text

@[simp] theorem lines_nil : lines [] = [] := rfl

/-- A text in which each carriage return, with a line feed after it or not, is a line feed; the
characters of `done` come before it, last first. -/
def unixLinesAfter (done : List Char) : List Char → List Char
  | [] => done.reverse
  | '\r' :: '\n' :: rest => unixLinesAfter ('\n' :: done) rest
  | '\r' :: rest => unixLinesAfter ('\n' :: done) rest
  | c :: rest => unixLinesAfter (c :: done) rest

/-- A text in which each carriage return, with a line feed after it or not, is a line feed. -/
def unixLines (text : List Char) : List Char := unixLinesAfter [] text

end FormulaBook.Text
