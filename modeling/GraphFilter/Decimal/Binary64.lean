/-!
# Binary floating-point numbers

Finite numbers of the 64-bit binary format as a sign, a significand and an
exponent.  Every operation computes an exact quotient of naturals and rounds it
once, to the nearest representable number, a tie going to the even significand.
-/

namespace GraphFilter.Decimal

/-! ## Rounding a quotient -/

/-- The integer nearest to `num / den`, a half going to the even neighbour. -/
def roundDiv (num den : Nat) : Nat :=
  let quotient := num / den
  let twice := 2 * (num % den)
  if twice < den then quotient
  else if den < twice then quotient + 1
  else if quotient % 2 = 0 then quotient
  else quotient + 1

/-- An exact quotient is not changed by rounding. -/
theorem roundDiv_of_dvd {num den : Nat} (hden : 0 < den) (h : den ∣ num) :
    roundDiv num den = num / den := by
  simp [roundDiv, Nat.mod_eq_zero_of_dvd h, hden]

/-! ## The format -/

/-- A significand and an exponent of the format: 53 bits at most, and a leading
bit unless the exponent is the least one. -/
def Canonical (significand : Nat) (exponent : Int) : Prop :=
  significand < Nat.pow 2 53 ∧ -1074 ≤ exponent ∧ exponent ≤ 971 ∧
    (exponent = -1074 ∨ Nat.pow 2 52 ≤ significand)

instance (significand : Nat) (exponent : Int) : Decidable (Canonical significand exponent) :=
  inferInstanceAs (Decidable (_ ∧ _ ∧ _ ∧ _))

/-- A finite number of the format, `± significand * 2 ^ exponent`. -/
structure Binary64 where
  negative : Bool
  significand : Nat
  exponent : Int
  canonical : Canonical significand exponent
deriving DecidableEq

namespace Binary64

/-- Positive or negative zero. -/
def zero (negative : Bool) : Binary64 :=
  ⟨negative, 0, -1074, by decide⟩

/-- Numerator of the magnitude. -/
def num (x : Binary64) : Nat :=
  x.significand * Nat.pow 2 x.exponent.toNat

/-- Denominator of the magnitude. -/
def den (x : Binary64) : Nat :=
  Nat.pow 2 (-x.exponent).toNat

/-- Whether the number is zero, of either sign. -/
def isZero (x : Binary64) : Bool :=
  x.significand == 0

/-- Change the sign. -/
def neg (x : Binary64) : Binary64 :=
  { x with negative := !x.negative }

/-! ## Exact results, rounded once -/

/-- Exponent of the last bit kept when the positive quotient `num / den` is
rounded: 53 bits in front of it, unless that falls below the least exponent. -/
def lastBit (num den : Nat) : Int :=
  let estimate : Int := (num.log2 : Int) - (den.log2 : Int) - 53
  let reaches : Bool :=
    den * Nat.pow 2 (estimate + 53).toNat ≤ num * Nat.pow 2 (-(estimate + 53)).toNat
  max (if reaches then estimate + 1 else estimate) (-1074)

/-- The number with a given significand and exponent, if the format has it.  A
significand that was rounded up to 54 bits moves one bit to the exponent. -/
def ofParts (negative : Bool) (significand : Nat) (exponent : Int) : Option Binary64 :=
  if h : Canonical significand exponent then some ⟨negative, significand, exponent, h⟩
  else if h : significand = Nat.pow 2 53 ∧ Canonical (Nat.pow 2 52) (exponent + 1) then
    some ⟨negative, Nat.pow 2 52, exponent + 1, h.2⟩
  else none

/-- The number nearest to `± num / den`; nothing if it exceeds the format. -/
def ofRatio (negative : Bool) (num den : Nat) : Option Binary64 :=
  if num = 0 then some (zero negative)
  else
    let last := lastBit num den
    let significand := roundDiv (num * Nat.pow 2 (-last).toNat) (den * Nat.pow 2 last.toNat)
    ofParts negative significand last

/-- The number nearest to an integer. -/
def ofInt (n : Int) : Option Binary64 :=
  ofRatio (n < 0) n.natAbs 1

/-- The number nearest to `± digits * 10 ^ exponent`. -/
def ofDecimal (negative : Bool) (digits : Nat) (exponent : Int) : Option Binary64 :=
  ofRatio negative (digits * Nat.pow 10 exponent.toNat) (Nat.pow 10 (-exponent).toNat)

/-- Product. -/
def mul (x y : Binary64) : Option Binary64 :=
  ofRatio (x.negative != y.negative) (x.num * y.num) (x.den * y.den)

/-- Quotient by a divisor that is not zero. -/
def div (x y : Binary64) : Option Binary64 :=
  ofRatio (x.negative != y.negative) (x.num * y.den) (x.den * y.num)

/-! ## Whole numbers -/

/-- The integer that a number without a fractional part stands for. -/
def toInt? (x : Binary64) : Option Int :=
  if x.num % x.den = 0 then
    let magnitude : Int := (x.num / x.den : Nat)
    some (if x.negative then -magnitude else magnitude)
  else none

end Binary64

end GraphFilter.Decimal
