import FormulaBook.Decimal.Binary

/-!
# Decimal notation

The written form of a decimal number: positional, as in `0.001` and `1200.0`, or scientific, as in
`1e-05` and `1.2e+16`. Which of the two is used depends on the exponent of the leading digit.

* `Scaled`: a number `coefficient * 10 ^ exponent`;
* `Layout`: the choices that a format makes;
* `Layout.render`: the written form of a magnitude;
* `Layout.text`: the written form of a double, given the decimal that stands for its magnitude.
-/

namespace FormulaBook.Decimal

/-- The number `coefficient * 10 ^ exponent`. -/
structure Scaled where
  coefficient : Nat
  exponent : Int
  deriving DecidableEq, Repr

namespace Scaled

/-- The digits of a decimal, without zeros at the end. -/
def digits (d : Scaled) : List Char :=
  let all := Nat.toDigits 10 d.coefficient
  match (all.reverse.dropWhile (· == '0')).reverse with
  | [] => ['0']
  | kept => kept

/-- The exponent of the leading digit. -/
def lead (d : Scaled) : Int := d.exponent + (Nat.toDigits 10 d.coefficient).length - 1

end Scaled

/-- How a format writes numbers: the leading exponents from −4 up to `positionalBelow` are written
positionally, and a whole number written so keeps a point if `keepsPoint`. -/
structure Layout where
  positionalBelow : Int
  keepsPoint : Bool
  infinity : String := "inf"
  notANumber : String := "nan"
  deriving Repr

namespace Layout

/-- Digits with a point after the one of exponent zero. -/
def positional (layout : Layout) (digits : List Char) (lead : Int) : List Char :=
  if lead < 0 then
    '0' :: '.' :: List.replicate (-lead - 1).toNat '0' ++ digits
  else
    let whole := (lead + 1).toNat
    if digits.length ≤ whole then
      digits ++ List.replicate (whole - digits.length) '0' ++
        (if layout.keepsPoint then ['.', '0'] else [])
    else digits.take whole ++ '.' :: digits.drop whole

/-- An exponent with its sign and at least two digits. -/
def exponent (e : Int) : List Char :=
  let digits := Nat.toDigits 10 e.natAbs
  'e' :: (if e < 0 then '-' else '+') :: List.replicate (2 - digits.length) '0' ++ digits

/-- The leading digit, the others after a point, and the exponent. -/
def scientific (digits : List Char) (lead : Int) : List Char :=
  match digits with
  | [] => []
  | [d] => d :: exponent lead
  | d :: rest => d :: '.' :: rest ++ exponent lead

/-- The written form of a magnitude. -/
def render (layout : Layout) (d : Scaled) : List Char :=
  if -4 ≤ d.lead && d.lead < layout.positionalBelow then
    layout.positional d.digits d.lead
  else scientific d.digits d.lead

/-- The written form of a double, where `choose` finds the decimal for a finite magnitude. -/
def text (layout : Layout) (choose : Binary → Scaled) (x : Float) : String :=
  let sign := if signBit x then ['-'] else []
  match Binary.ofFloat? x with
  | some b => String.ofList (sign ++ layout.render (choose b))
  | none => if x.isNaN then layout.notANumber else String.ofList sign ++ layout.infinity

end Layout

end FormulaBook.Decimal
