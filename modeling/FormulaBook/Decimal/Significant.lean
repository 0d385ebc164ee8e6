import FormulaBook.Decimal.Shortest

/-!
# A number of significant digits

A double rounded to a given number of significant digits and written without the zeros that
rounding leaves at the end.

* `Binary.rounded`: the nearest decimal of so many digits, ties to the even one;
* `significant`: its written form, positional while the leading exponent is below the number of
  digits.
-/

namespace FormulaBook.Decimal

/-- The decimal of `count` digits nearest to `b`. -/
def Binary.rounded (count : Nat) (b : Binary) : Scaled :=
  let s := b.lead - count + 1
  let (num, den) := scale b.ratio.1 b.ratio.2 10 (-s)
  ⟨roundDiv num den, s⟩

/-- Every double has fewer significant digits than this, so more of them change nothing. -/
def mostDigits : Nat := 1100

/-- A double with `count` significant digits; none counts as one. -/
def significant (count : Nat) (x : Float) : String :=
  let count := min mostDigits (max 1 count)
  let layout : Layout := { positionalBelow := count, keepsPoint := false }
  layout.text (Binary.rounded count) x

end FormulaBook.Decimal
