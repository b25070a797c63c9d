import GraphFilter.Decimal.Binary64

/-!
# Shortest decimal text

The text of a floating-point number has the fewest digits that read back as the
same number and, among those, the digits nearest to its exact value.  Leading
digits between `10 ^ -5` and `10 ^ 15` are written positionally, all others with
an exponent.
-/

namespace GraphFilter.Decimal

/-! ## Selecting the digits -/

/-- A decimal `digits * 10 ^ exponent`. -/
structure Scaled where
  digits : Nat
  exponent : Int
deriving DecidableEq

/-- Order of `a * 10 ^ i` and `n * 2 ^ j`. -/
def compareScaled (a : Nat) (i : Int) (n : Nat) (j : Int) : Ordering :=
  compare (a * Nat.pow 10 i.toNat * Nat.pow 2 (-j).toNat)
    (n * Nat.pow 2 j.toNat * Nat.pow 10 (-i).toNat)

namespace Binary64

/-- Whether a decimal lies among the reals that round to the magnitude of a
number: between the midpoints to its neighbours, which belong to it when its
significand is even. -/
def readsBack (x : Binary64) (d : Scaled) : Bool :=
  let narrow := x.significand == Nat.pow 2 52 && x.exponent > -1074
  let low := if narrow then 4 * x.significand - 1 else 4 * x.significand - 2
  let high := 4 * x.significand + 2
  let ends := x.significand % 2 == 0
  let below := compareScaled d.digits d.exponent low (x.exponent - 2)
  let above := compareScaled d.digits d.exponent high (x.exponent - 2)
  (below == .gt || (ends && below == .eq)) && (above == .lt || (ends && above == .eq))

/-- Number of digits before the decimal point, negative for leading zeros after
it: the least `k` with `x < 10 ^ k`. -/
def decimalScale (x : Binary64) : Int :=
  let estimate := ((x.significand.log2 + x.exponent) * 30103) / 100000
  let below (k : Int) : Bool := compareScaled 1 k x.significand x.exponent == .gt
  if below estimate then estimate
  else if below (estimate + 1) then estimate + 1
  else estimate + 2

/-- The nearer of the two neighbours of a number on the grid `10 ^ exponent`
among those that read back; a tie goes to the even digit. -/
def onGrid? (x : Binary64) (exponent : Int) : Option Scaled :=
  let floor := x.num * Nat.pow 10 (-exponent).toNat / (x.den * Nat.pow 10 exponent.toNat)
  let lower : Scaled := ⟨floor, exponent⟩
  let upper : Scaled := ⟨floor + 1, exponent⟩
  match x.readsBack lower, x.readsBack upper with
  | true, true =>
    match compareScaled (2 * floor + 1) exponent (2 * x.significand) x.exponent with
    | .gt => some lower
    | .lt => some upper
    | .eq => some (if floor % 2 = 0 then lower else upper)
  | true, false => some lower
  | false, true => some upper
  | false, false => none

/-- The exact decimal value of a number's magnitude. -/
def exactDecimal (x : Binary64) : Scaled :=
  ⟨x.significand * Nat.pow 2 x.exponent.toNat * Nat.pow 5 (-x.exponent).toNat, min x.exponent 0⟩

/-- The shortest decimal that reads back: the coarsest grid that holds one. -/
def shortest (x : Binary64) : Scaled :=
  let scale := x.decimalScale
  let grids := (List.range 17).map fun (n : Nat) => scale - 1 - (n : Int)
  (grids.findSome? x.onGrid?).getD x.exactDecimal

end Binary64

/-! ## Layout -/

/-- Decimal digits of a natural number. -/
def naturalDigits (n : Nat) : List Char :=
  Nat.toDigits 10 n

/-- Drop zeros at the end of a digit string. -/
def dropTrailingZeros (digits : List Char) : List Char :=
  (digits.reverse.dropWhile fun c => c == '0').reverse

/-- Exponents of the leading digit that are written positionally. -/
def isPositional (exponent : Int) : Bool :=
  -5 ≤ exponent && exponent ≤ 15

/-- Digits with the decimal point after the leading digit's place `exponent`; a
whole number ends in `.0`. -/
def positional (digits : List Char) (exponent : Int) : List Char :=
  if exponent < 0 then
    ['0', '.'] ++ List.replicate (-exponent - 1).toNat '0' ++ digits
  else
    let whole := exponent.toNat + 1
    if digits.length ≤ whole then
      digits ++ List.replicate (whole - digits.length) '0' ++ ['.', '0']
    else digits.take whole ++ '.' :: digits.drop whole

/-- Digits with the point after the first one and a signed exponent. -/
def scientific (digits : List Char) (exponent : Int) : List Char :=
  let mantissa :=
    match digits with
    | first :: second :: more => first :: '.' :: second :: more
    | short => short
  mantissa ++ 'e' :: (if exponent < 0 then '-' else '+') :: naturalDigits exponent.natAbs

/-- Lay out a decimal other than zero. -/
def layout (d : Scaled) : List Char :=
  let all := naturalDigits d.digits
  let exponent := d.exponent + all.length - 1
  let digits := dropTrailingZeros all
  if isPositional exponent then positional digits exponent else scientific digits exponent

/-- The text of a floating-point number. -/
def Binary64.text (x : Binary64) : String :=
  let magnitude := if x.isZero then ['0', '.', '0'] else layout x.shortest
  String.ofList (if x.negative then '-' :: magnitude else magnitude)

end GraphFilter.Decimal
