import FormulaBook.Decimal.Binary
import FormulaBook.Text.Blank
import FormulaBook.Text.DecimalDigit

/-!
# Numerals

Numbers as people type them: blanks around the numeral, digits of any script, a sign, underscores
between digits, and for doubles a point, an exponent, or a word for infinity or for no number.

* `ungrouped?`: a numeral without its underscores, each of which has a digit on both sides;
* `toFloat?`: the double that a text reads as;
* `digitLimit`, `isLong`: how long a whole number may be;
* `toInt`: the whole number that a text reads as.
-/

namespace FormulaBook.Decimal

open Text

/-- The blanks that may stand around a numeral. -/
def isNumeralBlank (c : Char) : Bool := isBlank c && !(0x1C ≤ c.toNat && c.toNat ≤ 0x1F)

/-- A digit of any script as an ASCII digit; all else unchanged. -/
def asciiDigit (c : Char) : Char :=
  match digitValue? c with
  | some d => Nat.digitChar d
  | none => c

/-- A text without underscores, where each stood between two digits. The flag tells whether a
digit has just been passed. -/
def ungrouped? : Bool → List Char → Option (List Char)
  | _, [] => some []
  | true, '_' :: d :: rest =>
    if isDigit d then (ungrouped? true rest).map (d :: ·) else none
  | _, c :: rest =>
    if c == '_' then none else (ungrouped? (isDigit c) rest).map (c :: ·)

/-- The value of a row of digits. -/
def natOfDigits (l : List Char) : Nat := l.foldl (fun n c => n * 10 + digitValue c) 0

/-- A sign at the front of a text, and what follows it. -/
def signed : List Char → Bool × List Char
  | '-' :: rest => (true, rest)
  | '+' :: rest => (false, rest)
  | l => (false, l)

/-- The exponent at the end of a decimal: none, or a letter with a signed row of digits. -/
def exponent? : List Char → Option Int
  | [] => some 0
  | e :: rest =>
    let (negative, digits) := signed rest
    if (e == 'e' || e == 'E') && !digits.isEmpty && digits.all isDigit then
      some (if negative then -(natOfDigits digits : Int) else natOfDigits digits)
    else none

/-- The double nearest to `coefficient * 10 ^ exponent`. Far outside the range of doubles the
power is not computed. -/
def ofDecimal (coefficient : Nat) (exponent : Int) : Float :=
  let top : Int := coefficient.log2 / 3 + 1 + exponent
  let bottom : Int := coefficient.log2 / 4 + exponent
  if coefficient == 0 || top < -400 then 0.0
  else if 400 < bottom then infinity
  else
    let (num, den) := scale coefficient 1 10 exponent
    nearest num den

/-- The magnitude that an unsigned numeral reads as: digits with a point among them or at either
end, and an exponent. -/
def magnitude? (l : List Char) : Option Float :=
  let whole := l.takeWhile isDigit
  let rest := l.dropWhile isDigit
  let (fraction, rest) := match rest with
    | '.' :: tail => (tail.takeWhile isDigit, tail.dropWhile isDigit)
    | _ => ([], rest)
  if whole.isEmpty && fraction.isEmpty then none
  else (exponent? rest).map fun e =>
    ofDecimal (natOfDigits (whole ++ fraction)) (e - fraction.length)

/-- The words for infinity and for no number, in small letters. -/
def word? (l : List Char) : Option Float :=
  match String.ofList (l.map Char.toLower) with
  | "inf" | "infinity" => some infinity
  | "nan" => some notANumber
  | _ => none

/-- The double that a text without blanks and underscores reads as. -/
def signedFloat? (l : List Char) : Option Float :=
  let (negative, rest) := signed l
  ((word? rest).or (magnitude? rest)).map fun x => if negative then -x else x

/-- The characters of a numeral, with ASCII digits and without blanks at the ends. -/
def numeralChars (s : String) : List Char := (trimBy isNumeralBlank s.toList).map asciiDigit

/-- The double that a text reads as. -/
def toFloat? (s : String) : Option Float :=
  (ungrouped? false (numeralChars s)).bind signedFloat?

/-! ### Whole numbers -/

/-- The greatest number of decimal digits of a whole number that is read or written. -/
def digitLimit : Nat := 4300

/-- The text for a numeral that has too many digits. -/
def longNumeralMessage (digits : Nat) : String :=
  s!"Exceeds the limit ({digitLimit} digits) for integer string conversion: value has " ++
    s!"{digits} digits; use sys.set_int_max_str_digits() to increase the limit"

/-- The text for a whole number that has too many digits to be written. -/
def longNumberMessage : String :=
  s!"Exceeds the limit ({digitLimit} digits) for integer string conversion; " ++
    "use sys.set_int_max_str_digits() to increase the limit"

/-- Whether a whole number has too many digits to be written. -/
def isLong (n : Int) : Bool := Nat.pow 10 digitLimit ≤ n.natAbs

/-- Why a text reads as no whole number. -/
inductive IntError where
  | malformed
  | tooManyDigits (digits : Nat)
  deriving DecidableEq, Repr

/-- The whole number of a sign and a row of digits. The digits are counted before what follows them
is looked at. -/
def readInt (l : List Char) : Except IntError Int :=
  let (negative, l) := signed l
  let row := l.takeWhile fun c => isDigit c || c == '_'
  match ungrouped? false row with
  | none => .error .malformed
  | some digits =>
    if digitLimit < digits.length then .error (.tooManyDigits digits.length)
    else if digits.isEmpty || row.length < l.length then .error .malformed
    else .ok (if negative then -(natOfDigits digits : Int) else natOfDigits digits)

/-- The whole number that a text reads as. -/
def toInt (s : String) : Except IntError Int := readInt (numeralChars s)

end FormulaBook.Decimal
