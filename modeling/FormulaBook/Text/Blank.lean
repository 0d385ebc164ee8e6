/-!
# Blank characters

The characters that separate words in a text that a person has typed, and the removal of them from
the two ends of a text.

* `isBlank`: the Unicode white space, with the four ASCII information separators;
* `isLayout`: the five blanks that may stand between the tokens of an expression;
* `trimBy`, `trim`: a text without the blanks at its ends.
-/

namespace FormulaBook.Text

/-- Unicode white space, and the information separators U+001C to U+001F. -/
def isBlank (c : Char) : Bool :=
  let n := c.toNat
  (0x09 ≤ n && n ≤ 0x0D) || (0x1C ≤ n && n ≤ 0x20) || n == 0x85 || n == 0xA0 || n == 0x1680 ||
    (0x2000 ≤ n && n ≤ 0x200A) || n == 0x2028 || n == 0x2029 || n == 0x202F || n == 0x205F ||
    n == 0x3000

/-- Space, tab, line feed, form feed and carriage return. -/
def isLayout (c : Char) : Bool :=
  c == ' ' || c == '\t' || c == '\n' || c == '\x0C' || c == '\r'

theorem isBlank_of_isLayout {c : Char} (h : isLayout c) : isBlank c := by
  simp only [isLayout, Bool.or_eq_true, beq_iff_eq] at h
  rcases h with (((rfl | rfl) | rfl) | rfl) | rfl <;> decide

/-- A list without the members that satisfy `p` at either end. -/
def trimBy (p : Char → Bool) (l : List Char) : List Char :=
  ((l.dropWhile p).reverse.dropWhile p).reverse

@[simp] theorem trimBy_nil (p : Char → Bool) : trimBy p [] = [] := rfl

/-- A text without the blanks at either end. -/
def trim (s : String) : String := String.ofList (trimBy isBlank s.toList)

@[simp] theorem toList_trim (s : String) : (trim s).toList = trimBy isBlank s.toList := by
  simp [trim]

end FormulaBook.Text
