import FormulaBook.Text.CodePoint
import FormulaBook.Text.Printable

/-!
# Quoted text

A text between quotation marks, on one line and in printable characters, as messages show it.

* `hex`: a number in lowercase hexadecimal digits, with leading zeros up to a width;
* `unitEscape`: a UTF-16 unit as an escape;
* `mark`: the apostrophe, or the double quote for a text that holds an apostrophe and no double
  quote;
* `escape`, `escapeCode`: a character, and a code point, between two marks;
* `quote`: the quoted text;
* `spellHalves`: a text without marks, in which only halves of pairs are escaped.
-/

namespace FormulaBook.Text

/-- The lowercase hexadecimal digits of `n`, at least `width` of them. -/
def hex (width n : Nat) : List Char :=
  let digits := Nat.toDigits 16 n
  List.replicate (width - digits.length) '0' ++ digits

/-- The escape for a UTF-16 unit. -/
def unitEscape (unit : Nat) : List Char := '\\' :: 'u' :: hex 4 unit

namespace Quoted

/-- The mark that stands at both ends. -/
def mark (text : List Char) : Char :=
  if text.contains '\'' && !text.contains '"' then '"' else '\''

/-- A character between two marks `m`. -/
def escape (m c : Char) : List Char :=
  if c == m || c == '\\' then ['\\', c]
  else if c == '\n' then ['\\', 'n']
  else if c == '\r' then ['\\', 'r']
  else if c == '\t' then ['\\', 't']
  else if ' ' ≤ c && c ≤ '~' then [c]
  else if isPrintable c then [c]
  else if c.toNat ≤ 0xFF then '\\' :: 'x' :: hex 2 c.toNat
  else if c.toNat ≤ 0xFFFF then unitEscape c.toNat
  else '\\' :: 'U' :: hex 8 c.toNat

/-- A code point between two marks `m`. -/
def escapeCode (m : Char) (code : Nat) : List Char :=
  if isHalf code then unitEscape code else escape m (Char.ofNat code)

end Quoted

/-- The quoted form of a text. -/
def quote (s : String) : String :=
  let m := Quoted.mark s.toList
  String.ofList (m :: (codes s).flatMap (Quoted.escapeCode m) ++ [m])

/-- A text in which each half of a pair is written as an escape. -/
def spellHalves (s : String) : String :=
  String.ofList ((codes s).flatMap fun code =>
    if isHalf code then unitEscape code else [Char.ofNat code])

end FormulaBook.Text
