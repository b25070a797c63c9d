import GraphFilter.Decimal.Binary64

/-!
# Decimal literals

Reading a whole text as an integer or as a decimal number with an optional point
and exponent.  Signs of either kind may stand in front, digits may be missing on
one side of the point, and nothing else may follow.
-/

namespace GraphFilter.Decimal

/-! ## Digits -/

/-- Value of a decimal digit. -/
def digitValue (c : Char) : Nat :=
  c.toNat - '0'.toNat

/-- Natural number written by a digit string, continuing from `start`. -/
def valueFrom (start : Nat) (digits : List Char) : Nat :=
  digits.foldl (fun n c => 10 * n + digitValue c) start

/-- Natural number written by a digit string. -/
def digitsValue (digits : List Char) : Nat :=
  valueFrom 0 digits

/-- Split a text into its longest run of leading digits and the rest. -/
def splitDigits (s : List Char) : List Char × List Char :=
  (s.takeWhile Char.isDigit, s.dropWhile Char.isDigit)

/-- Splitting loses nothing. -/
theorem splitDigits_append (s : List Char) : (splitDigits s).1 ++ (splitDigits s).2 = s := by
  simp [splitDigits]

/-! ## Integers -/

/-- An optional sign; `true` stands for minus. -/
def readSign : List Char → Bool × List Char
  | '-' :: rest => (true, rest)
  | '+' :: rest => (false, rest)
  | rest => (false, rest)

/-- A whole text of one or more digits. -/
def readNatural? (s : List Char) : Option Nat :=
  if s.isEmpty || !s.all Char.isDigit then none else some (digitsValue s)

/-- A whole text of an optional sign and one or more digits. -/
def readInteger? (s : List Char) : Option Int :=
  let (negative, rest) := readSign s
  (readNatural? rest).map fun n => if negative then -(n : Int) else n

/-! ## Decimal numbers -/

/-- The number `± digits * 10 ^ exponent` that a literal denotes. -/
structure Literal where
  negative : Bool
  digits : Nat
  exponent : Int

/-- An exponent part, or nothing at all. -/
def readExponent? : List Char → Option Int
  | [] => some 0
  | c :: rest => if c == 'e' || c == 'E' then readInteger? rest else none

/-- A whole text that is a decimal literal. -/
def readLiteral? (s : List Char) : Option Literal :=
  let (negative, rest) := readSign s
  let (whole, rest) := splitDigits rest
  let (fraction, rest) :=
    match rest with
    | '.' :: more => splitDigits more
    | other => ([], other)
  if whole.isEmpty && fraction.isEmpty then none
  else
    (readExponent? rest).map fun exponent =>
      ⟨negative, digitsValue (whole ++ fraction), exponent - fraction.length⟩

/-- The number nearest to a literal; nothing if it exceeds the format.  Literals
beyond `10 ^ 310` or below `10 ^ -330` are settled without computing the power. -/
def Literal.nearest (l : Literal) : Option Binary64 :=
  let scale := l.exponent + (Nat.toDigits 10 l.digits).length
  if l.digits = 0 || scale < -330 then some (Binary64.zero l.negative)
  else if scale > 310 then none
  else Binary64.ofDecimal l.negative l.digits l.exponent

end GraphFilter.Decimal
