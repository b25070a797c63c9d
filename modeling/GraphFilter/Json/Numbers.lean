import GraphFilter.Json.Cursor
import GraphFilter.Json.Value
import GraphFilter.Decimal.Literal

/-!
# Reading numbers

A number is split into its digit strings first and evaluated afterwards.  The
value of a number that is not a plain integer is computed in two roundings: a
significand of at most 64 bits becomes the nearest floating-point number, which
is then scaled by a power of ten.
-/

namespace GraphFilter.Json

open Decimal (Binary64)

/-! ## Evaluation -/

/-- The greatest significand, and the greatest exponent that a text may write. -/
def greatestSignificand : Nat := 0xFFFFFFFFFFFFFFFF

@[inherit_doc greatestSignificand]
def greatestExponent : Nat := 0x7FFFFFFF

/-- Append digits to a number while it stays within a limit; the digits that did
not fit are left over. -/
def takeDigits (limit : Nat) : Nat → List Char → Nat × List Char
  | n, [] => (n, [])
  | n, d :: rest =>
    let n' := 10 * n + Decimal.digitValue d
    if n' ≤ limit then takeDigits limit n' rest else (n, d :: rest)

/-- The floating-point number nearest to a power of ten of at most 308. -/
def powerOfTen (exponent : Nat) : Binary64 :=
  (Binary64.ofDecimal false 1 exponent).getD (.zero false)

/-- Divide by `10 ^ 308` a number of times, or until zero is left. -/
def divideRepeatedly : Nat → Binary64 → Option Binary64
  | 0, x => some x
  | steps + 1, x =>
    if x.isZero then some x else (x.div (powerOfTen 308)).bind (divideRepeatedly steps)

/-- Scale by a power of ten: one multiplication or division for exponents of at
most 308, repeated division for smaller ones; nothing if the number becomes too
large. -/
def scaleByTen (x : Binary64) (exponent : Int) : Option Binary64 :=
  if 308 < exponent then if x.isZero then some x else none
  else if 0 ≤ exponent then x.mul (powerOfTen exponent.toNat)
  else
    let places := (-exponent).toNat
    let steps := (places - 1) / 308
    (divideRepeatedly steps x).bind fun y => y.div (powerOfTen (places - 308 * steps))

/-- The floating-point number `± significand * 10 ^ exponent`, in two roundings. -/
def scaledNumber (negative : Bool) (significand : Nat) (exponent : Int) : Option Number := do
  let x ← Binary64.ofInt significand
  let y ← scaleByTen x exponent
  return .float (if negative then y.neg else y)

/-- The number written by an integer that fits 64 bits.  A negative one below the
signed range becomes floating-point, and so does negative zero. -/
def integerNumber (negative : Bool) (magnitude : Nat) : Option Number :=
  if !negative then
    if h : KeepsInteger magnitude then some (.int magnitude h) else none
  else if magnitude = 0 then some (.float (.zero true))
  else if h : KeepsInteger (-(magnitude : Int)) then some (.int (-(magnitude : Int)) h)
  else (Binary64.ofInt (-(magnitude : Int))).map .float

/-- The digit strings of a number.  The exponent is a sign and its digits. -/
structure NumberText where
  negative : Bool
  whole : List Char
  fraction : Option (List Char)
  exponent : Option (Bool × List Char)

/-- The number that a text stands for; nothing if it is out of range. -/
def NumberText.value (t : NumberText) : Option Number :=
  let (significand, left) := takeDigits greatestSignificand 0 t.whole
  if t.fraction.isNone && t.exponent.isNone && left.isEmpty then
    integerNumber t.negative significand
  else
    let fraction := t.fraction.getD []
    let (significand, lost) := takeDigits greatestSignificand significand fraction
    let base : Int := left.length - (fraction.length - lost.length : Int)
    match t.exponent with
    | none => scaledNumber t.negative significand base
    | some (minus, digits) =>
      let (exponent, excess) := takeDigits greatestExponent 0 digits
      if excess.isEmpty then
        scaledNumber t.negative significand (if minus then base - exponent else base + exponent)
      else if significand = 0 || minus then some (.float (.zero t.negative))
      else none

/-- Number of exponent digits up to the one with which the number is known to be
out of range. -/
def NumberText.fatalDigits? (t : NumberText) : Option Nat :=
  match t.exponent with
  | some (false, digits) =>
    let (_, excess) := takeDigits greatestExponent 0 digits
    let significant := (t.whole ++ t.fraction.getD []).any fun d => d != '0'
    if excess.isEmpty || !significant then none else some (digits.length - excess.length + 1)
  | _ => none

/-! ## Splitting the text -/

/-- Move behind `count` characters. -/
def Cursor.skip (c : Cursor) : Nat → Cursor
  | 0 => c
  | count + 1 => c.next.skip count

/-- Read the digits at the cursor. -/
def readDigits (c : Cursor) : List Char × Cursor :=
  let digits := c.rest.takeWhile Char.isDigit
  (digits, c.skip digits.length)

/-- Read the digits in front of the point.  A leading zero stands alone. -/
def readWhole (c : Cursor) : Except Failure (List Char × Cursor) :=
  match c.rest with
  | [] => c.failHere .endInValue
  | '0' :: _ =>
    let behind := c.next
    match behind.rest with
    | d :: _ => if d.isDigit then behind.failPeek .invalidNumber else .ok (['0'], behind)
    | [] => .ok (['0'], behind)
  | d :: _ => if d.isDigit then .ok (readDigits c) else c.failPeek .invalidNumber

/-- Read a point and the digits behind it, if there is one. -/
def readFraction (c : Cursor) : Except Failure (Option (List Char) × Cursor) :=
  match c.rest with
  | '.' :: _ =>
    let (digits, behind) := readDigits c.next
    if digits.isEmpty then
      behind.failPeek (if behind.rest.isEmpty then .endInValue else .invalidNumber)
    else .ok (some digits, behind)
  | _ => .ok (none, c)

/-- Whether a character opens an exponent. -/
def isExponentMark (c : Char) : Bool :=
  c == 'e' || c == 'E'

/-- Read the sign of an exponent; `true` stands for minus. -/
def readExponentSign (c : Cursor) : Bool × Cursor :=
  match c.rest with
  | '-' :: _ => (true, c.next)
  | '+' :: _ => (false, c.next)
  | _ => (false, c)

/-- Read an exponent, if there is one. -/
def readExponent (c : Cursor) : Except Failure (Option (Bool × List Char) × Cursor) :=
  match c.rest with
  | [] => .ok (none, c)
  | mark :: _ =>
    if !isExponentMark mark then .ok (none, c)
    else
      let (minus, c) := readExponentSign c.next
      match c.rest with
      | [] => c.failHere .endInValue
      | d :: _ =>
        if d.isDigit then
          let (digits, behind) := readDigits c
          .ok (some (minus, digits), behind)
        else c.failPeek .invalidNumber

/-- Read a number, at its sign or first digit. -/
def readNumber (c : Cursor) : Except Failure (Number × Cursor) := do
  let (negative, c) :=
    match c.rest with
    | '-' :: _ => (true, c.next)
    | _ => (false, c)
  let (whole, c) ← readWhole c
  let (fraction, c) ← readFraction c
  let (exponent, behind) ← readExponent c
  let text : NumberText := ⟨negative, whole, fraction, exponent⟩
  match text.fatalDigits? with
  | some count => ((readExponentSign c.next).2.skip count).failHere .numberOutOfRange
  | none =>
    match text.value with
    | some n => return (n, behind)
    | none => behind.failHere .numberOutOfRange

end GraphFilter.Json
