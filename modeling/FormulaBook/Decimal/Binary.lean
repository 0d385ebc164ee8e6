/-!
# Doubles as exact numbers

A finite double is a whole number of units, a unit being a power of two. Reading and writing
decimals is done on these whole numbers, where nothing is rounded by accident.

* `roundDiv`: a quotient rounded to the nearest whole number, ties to the even one;
* `Binary`: a magnitude `mantissa * 2 ^ exponent`, with `Binary.ofFloat?`;
* `integer?`, `truncated?`: doubles as whole numbers;
* `nearest`: the double nearest to a fraction.
-/

namespace FormulaBook.Decimal

/-- The whole number nearest to `num / den`, the even one of two at the same distance. -/
def roundDiv (num den : Nat) : Nat :=
  let quotient := num / den
  let twice := 2 * (num % den)
  if twice < den || (twice == den && quotient % 2 == 0) then quotient else quotient + 1

/-- The fraction `num / den` times `base ^ power`, as a numerator and a denominator. -/
def scale (num den base : Nat) (power : Int) : Nat × Nat :=
  (num * base.pow power.toNat, den * base.pow (-power).toNat)

/-- The number `mantissa * 2 ^ exponent`. -/
structure Binary where
  mantissa : Nat
  exponent : Int
  deriving DecidableEq, Repr

/-- The least exponent of a double, that of the numbers nearest to zero. -/
def leastExponent : Int := -1074

/-- The magnitude of a finite double. -/
def Binary.ofFloat? (x : Float) : Option Binary :=
  let bits := x.toBits.toNat
  let fraction := bits % Nat.pow 2 52
  match bits / Nat.pow 2 52 % Nat.pow 2 11 with
  | 0 => some ⟨fraction, leastExponent⟩
  | 2047 => none
  | biased => some ⟨Nat.pow 2 52 + fraction, biased - 1075⟩

/-- Whether the sign bit of a double is set, as it is in negative zero. -/
def signBit (x : Float) : Bool := x.toBits.toNat / Nat.pow 2 63 == 1

/-- A magnitude as a numerator and a denominator. -/
def Binary.ratio (b : Binary) : Nat × Nat := scale b.mantissa 1 2 b.exponent

/-- A whole number with the sign of `x`. -/
def withSign (x : Float) (n : Nat) : Int := if signBit x then -(n : Int) else n

/-- The whole part of a finite double. -/
def truncated? (x : Float) : Option Int :=
  (Binary.ofFloat? x).map fun b => withSign x (b.ratio.1 / b.ratio.2)

/-- The value of a finite double that has no fractional part. -/
def integer? (x : Float) : Option Int :=
  (Binary.ofFloat? x).bind fun b =>
    if b.ratio.1 % b.ratio.2 == 0 then some (withSign x (b.ratio.1 / b.ratio.2)) else none

/-- The bits of positive infinity. -/
def infinityBits : Nat := 2047 * Nat.pow 2 52

/-- The bits of the double nearest to `num / den`, ties to the even mantissa. The mantissa has 53
bits unless the exponent is the least one; a number too large for the format is infinite. -/
def nearestBits (num den : Nat) : Nat :=
  if num == 0 then 0
  else
    let height : Int := num.log2 - den.log2
    let fits (q : Int) : Bool :=
      let (n, d) := scale num den 2 (-q)
      n / d < Nat.pow 2 53
    let q := max leastExponent (if fits (height - 53) then height - 53 else height - 52)
    let (n, d) := scale num den 2 (-q)
    min infinityBits ((q - leastExponent).toNat * Nat.pow 2 52 + roundDiv n d)

/-- The double nearest to `num / den`. -/
def nearest (num den : Nat) : Float := Float.ofBits (nearestBits num den).toUInt64

/-- Positive infinity. -/
def infinity : Float := Float.ofBits infinityBits.toUInt64

/-- The double that stands for no number. -/
def notANumber : Float := Float.ofBits 0x7FF8000000000000

end FormulaBook.Decimal
