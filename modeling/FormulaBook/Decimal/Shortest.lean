import FormulaBook.Decimal.Layout

/-!
# The shortest decimal

A double is written with the fewest digits that read back as the same double; of several such
decimals the nearest is taken.

* `Binary.lead`: the exponent of the leading digit of a magnitude;
* `Binary.readsBack`: whether a decimal reads as a given double;
* `Binary.shortest`: the decimal described above;
* `shortest`: its written form, positional below ten to the sixteenth, with a point always.
-/

namespace FormulaBook.Decimal

/-- The number of decimal digits of `n`. -/
def digitCount (n : Nat) : Nat := (Nat.toDigits 10 n).length

namespace Binary

/-- The exponent `e` with `10 ^ e ≤ b < 10 ^ (e + 1)`. -/
def lead (b : Binary) : Int :=
  let (num, den) := b.ratio
  if num == 0 then 0
  else if den ≤ num then (digitCount (num / den) : Int) - 1
  else -(digitCount ((den - 1) / num) : Int)

/-- Whether `d` lies between the midpoints to the neighbours of `b`, in units of a quarter of the
distance to the upper one; the midpoints themselves read as `b` if its mantissa is even. -/
def readsBack (b : Binary) (d : Scaled) : Bool :=
  let low := if b.mantissa == Nat.pow 2 52 && leastExponent < b.exponent
    then 4 * b.mantissa - 1 else 4 * b.mantissa - 2
  let high := 4 * b.mantissa + 2
  let (c, unit) := scale d.coefficient 1 10 d.exponent
  let (one, quarter) := scale 1 1 2 (b.exponent - 2)
  let point := c * quarter
  let unit := unit * one
  if b.mantissa % 2 == 0 then low * unit ≤ point && point ≤ high * unit
  else low * unit < point && point < high * unit

/-- The multiple of `10 ^ s` that reads back, if there is one: of the two neighbours of `b` among
the multiples the one that reads back, or the nearer if both do. -/
def onGrid? (b : Binary) (s : Int) : Option Scaled :=
  let (num, den) := scale b.ratio.1 b.ratio.2 10 (-s)
  let below : Scaled := ⟨num / den, s⟩
  let above : Scaled := ⟨num / den + 1, s⟩
  match b.readsBack below, b.readsBack above with
  | true, true => some ⟨roundDiv num den, s⟩
  | true, false => some below
  | false, true => some above
  | false, false => none

/-- The decimal of fewest digits that reads back; seventeen digits always do. -/
def shortest (b : Binary) : Scaled :=
  if b.mantissa == 0 then ⟨0, 0⟩
  else ((List.range 17).findSome? fun (n : Nat) => b.onGrid? (b.lead - n)).getD ⟨0, 0⟩

end Binary

/-- The layout of a number that stands alone. -/
def plain : Layout := { positionalBelow := 16, keepsPoint := true }

/-- The shortest written form of a double. -/
def shortest (x : Float) : String := plain.text Binary.shortest x

end FormulaBook.Decimal
