import FormulaBook.Decimal.Numeral
import FormulaBook.Value.Text

/-!
# Numeric settings

A setting that is a whole number may be written as any value that stands for one: a number, whose
fraction is dropped, a truth value, or the digits of a number as a text or as octets.

* `SettingError`: why a value stands for no whole number;
* `Value.toInt`: the whole number that a value stands for.
-/

namespace FormulaBook

/-- Why a value stands for no whole number. A numeral is held in its quoted form. -/
inductive SettingError where
  | badNumeral (quoted : String)
  | tooManyDigits (digits : Nat)
  | notANumber
  | unsuitable
  deriving DecidableEq, Repr

/-- The text that a person sees; of a long numeral the beginning is shown. -/
def SettingError.message : SettingError → String
  | .badNumeral quoted =>
    "invalid literal for int() with base 10: " ++ String.ofList (quoted.toList.take 200)
  | .tooManyDigits digits => Decimal.longNumeralMessage digits
  | .notANumber => "cannot convert float NaN to integer"
  | .unsuitable => ""

/-- The error for a numeral that is quoted in a message. -/
def SettingError.ofNumeral (quoted : String) : Decimal.IntError → SettingError
  | .malformed => .badNumeral quoted
  | .tooManyDigits digits => .tooManyDigits digits

/-- Octets as the text of a numeral, in which a question mark stands for what is not ASCII. -/
def asciiText (octets : List UInt8) : String :=
  String.ofList (octets.map fun b => if b.toNat < 0x80 then Char.ofNat b.toNat else '?')

/-- The whole number that a value stands for. -/
def Value.toInt : Value → Except SettingError Int
  | .int n => .ok n
  | .bool b => .ok (if b then 1 else 0)
  | .float x =>
    match Decimal.truncated? x with
    | some n => .ok n
    | none => .error (if x.isNaN then .notANumber else .unsuitable)
  | .text s => (Decimal.toInt s).mapError (.ofNumeral (Text.quote s))
  | .bytes octets => (Decimal.toInt (asciiText octets)).mapError (.ofNumeral (quoteBytes octets))
  | _ => .error .unsuitable

end FormulaBook
