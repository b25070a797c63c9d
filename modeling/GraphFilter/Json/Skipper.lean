import GraphFilter.Json.Reader

/-!
# Skipping values

Moving behind a value that nobody asked for.  Skipping knows no limit of depth,
since the brackets that are open are kept in a list, and checks less than reading:
numbers may be of any size, and escapes by number need not form characters.
-/

namespace GraphFilter.Json

/-! ## Scalars -/

/-- Move behind a string, at the character after its opening quote. -/
def skipChars : Nat → Cursor → Except Failure Cursor
  | 0, c => c.failHere .endInString
  | steps + 1, c =>
    match c.rest with
    | [] => c.failHere .endInString
    | '"' :: _ => .ok c.next
    | '\\' :: _ => do
      let c := c.next
      match c.rest with
      | [] => c.failHere .endInString
      | 'u' :: _ =>
        let (_, c) ← readHex c.next
        skipChars steps c
      | ch :: _ =>
        if (letterEscape? ch).isSome then skipChars steps c.next else c.failPeek .invalidEscape
    | ch :: _ =>
      if ch.toNat < 0x20 then c.failHere .controlCharacter else skipChars steps c.next

/-- Move behind a string, at the character after its opening quote. -/
def skipString (c : Cursor) : Except Failure Cursor :=
  skipChars (c.rest.length + 1) c

/-- Move behind the digits in front of the point. -/
def skipWhole (c : Cursor) : Except Failure Cursor :=
  match c.rest with
  | [] => c.failHere .invalidNumber
  | _ :: _ => (readWhole c).map Prod.snd

/-- Move behind a point and the digits behind it, if there is one. -/
def skipFraction (c : Cursor) : Except Failure Cursor :=
  match c.rest with
  | '.' :: _ =>
    let (digits, behind) := readDigits c.next
    if digits.isEmpty then behind.failPeek .invalidNumber else .ok behind
  | _ => .ok c

/-- Move behind an exponent, if there is one. -/
def skipExponent (c : Cursor) : Except Failure Cursor :=
  match c.rest with
  | [] => .ok c
  | mark :: _ =>
    if !isExponentMark mark then .ok c
    else
      let c := (readExponentSign c.next).2
      match c.rest with
      | [] => c.failHere .invalidNumber
      | d :: _ => if d.isDigit then .ok (readDigits c).2 else c.failPeek .invalidNumber

/-- Move behind a number, at its sign or first digit. -/
def skipNumber (c : Cursor) : Except Failure Cursor := do
  let c ← skipWhole (match c.rest with
    | '-' :: _ => c.next
    | _ => c)
  let c ← skipFraction c
  skipExponent c

/-- Move behind a value that is neither an array nor an object. -/
def skipScalar (c : Cursor) : Except Failure Cursor :=
  match c.rest with
  | [] => c.failPeek .endInValue
  | ch :: _ =>
    if ch = 'n' then readWord ['u', 'l', 'l'] c.next
    else if ch = 't' then readWord ['r', 'u', 'e'] c.next
    else if ch = 'f' then readWord ['a', 'l', 's', 'e'] c.next
    else if ch = '"' then skipString c.next
    else if ch = '-' || ch.isDigit then skipNumber c
    else c.failPeek .expectedValue

/-! ## Brackets -/

/-- An array or object that is open. -/
inductive Bracket where
  | list
  | object
deriving DecidableEq

namespace Bracket

/-- The character that closes it. -/
def closer : Bracket → Char
  | list => ']'
  | object => '\x7d'

/-- What is wrong if the text ends inside it. -/
def atEnd : Bracket → Fault
  | list => .endInList
  | object => .endInObject

/-- What is wrong if a value in it is followed by something else than a comma or
its closing character. -/
def atOther : Bracket → Fault
  | list => .expectedListEnd
  | object => .expectedObjectEnd

/-- Move to the value of the next element or member. -/
def enter (b : Bracket) (c : Cursor) : Except Failure Cursor :=
  match b with
  | list => .ok c
  | object =>
    let c := c.skipSpace
    match c.rest with
    | [] => c.failPeek .endInObject
    | ch :: _ =>
      if ch = '"' then do
        let c ← skipString c.next
        readColon c
      else c.failPeek .keyNotString

end Bracket

/-- Close brackets as far as possible.  The result is the brackets still open,
with the cursor at the next value in them; none are left when the outermost one
was closed.  `behindValue` says that a value precedes, so that a comma may follow. -/
def closeBrackets : Bool → List Bracket → Cursor → Except Failure (List Bracket × Cursor)
  | _, [], c => .ok ([], c)
  | behindValue, b :: outer, c =>
    let c := c.skipSpace
    match c.rest with
    | [] => c.failPeek b.atEnd
    | ch :: _ =>
      if behindValue && ch == ',' then (b.enter c.next).map fun c => (b :: outer, c)
      else if ch = b.closer then closeBrackets true outer c.next
      else if behindValue then c.failPeek b.atOther
      else (b.enter c).map fun c => (b :: outer, c)

/-! ## Values -/

/-- Move behind a value and then behind the rest of the brackets around it. -/
def skipWithin : Nat → List Bracket → Cursor → Except Failure Cursor
  | 0, _, c => c.failPeek .endInValue
  | steps + 1, outer, c => do
    let c := c.skipSpace
    let (outer, c) ←
      match c.rest with
      | '[' :: _ => closeBrackets false (.list :: outer) c.next
      | '\x7b' :: _ => closeBrackets false (.object :: outer) c.next
      | _ => do
        let c ← skipScalar c
        closeBrackets true outer c
    if outer.isEmpty then return c else skipWithin steps outer c

/-- Move behind a value. -/
def skipValue (c : Cursor) : Except Failure Cursor :=
  skipWithin (c.rest.length + 1) [] c

end GraphFilter.Json
