import FormulaBook.Decimal.Numeral
import FormulaBook.Decimal.Significant

/-!
# Numbers for display

A whole number is shown in full, without a point. Any other number is shown with a number of
significant digits, its precision.

* `PrecisionError`: why a precision cannot be used;
* `formatNumber`: the shown form.
-/

namespace FormulaBook

/-- Why a precision cannot be used. -/
inductive PrecisionError where
  | negative
  | tooBig
  | tooManyDigits
  /-- The precision itself is too long a number to be written. -/
  | unwritable
  deriving DecidableEq, Repr

/-- The text that a person sees. -/
def PrecisionError.message : PrecisionError → String
  | .negative => "Format specifier missing precision"
  | .tooBig => "precision too big"
  | .tooManyDigits => "Too many decimal digits in format string"
  | .unwritable => Decimal.longNumberMessage

/-- The number of significant digits that a precision asks for. -/
def significantDigits (precision : Int) : Except PrecisionError Nat :=
  if Decimal.isLong precision then .error .unwritable
  else if precision < 0 then .error .negative
  else if Nat.pow 2 63 ≤ precision then .error .tooManyDigits
  else if Nat.pow 2 31 ≤ precision then .error .tooBig
  else .ok precision.toNat

/-- The precision that is used where none is chosen. -/
def defaultPrecision : Int := 10

/-- The shown form of a number. The precision matters only for a number that is not whole. -/
def formatNumber (x : Float) (precision : Int := defaultPrecision) : Except PrecisionError String :=
  match Decimal.integer? x with
  | some n => .ok (toString n)
  | none => (significantDigits precision).map (Decimal.significant · x)

end FormulaBook
