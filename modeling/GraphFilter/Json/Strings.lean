import GraphFilter.Json.Cursor

/-!
# Reading strings

The characters of a string up to its closing quote.  Escapes by code number may
come in surrogate pairs; half a pair is an error.
-/

namespace GraphFilter.Json

/-! ## Escapes -/

/-- Value of a hexadecimal digit. -/
def hexValue? (c : Char) : Option Nat :=
  if c.isDigit then some (c.toNat - '0'.toNat)
  else if 'a' ≤ c && c ≤ 'f' then some (c.toNat - 'a'.toNat + 10)
  else if 'A' ≤ c && c ≤ 'F' then some (c.toNat - 'A'.toNat + 10)
  else none

/-- Number written by the first four characters, if all are hexadecimal digits. -/
def hexNumber? : List Char → Option Nat
  | a :: b :: c :: d :: _ => do
    let a ← hexValue? a
    let b ← hexValue? b
    let c ← hexValue? c
    let d ← hexValue? d
    return ((a * 16 + b) * 16 + c) * 16 + d
  | _ => none

/-- The character that a one-letter escape stands for. -/
def letterEscape? : Char → Option Char
  | '"' => some '"'
  | '\\' => some '\\'
  | '/' => some '/'
  | 'b' => some '\x08'
  | 'f' => some '\x0c'
  | 'n' => some '\n'
  | 'r' => some '\r'
  | 't' => some '\t'
  | _ => none

/-- Read the four digits of an escape by number. -/
def readHex (c : Cursor) : Except Failure (Nat × Cursor) :=
  match hexNumber? c.rest with
  | some n => .ok (n, c.next.next.next.next)
  | none =>
    match c.position.advanceBytes 4 c.rest with
    | some place => .error (.placed .invalidEscape place)
    | none => .error (.placed .endInString c.finish)

/-- Whether a code number is the first half of a surrogate pair. -/
def isHighSurrogate (n : Nat) : Bool :=
  0xD800 ≤ n && n ≤ 0xDBFF

/-- Whether a code number is the second half of a surrogate pair. -/
def isLowSurrogate (n : Nat) : Bool :=
  0xDC00 ≤ n && n ≤ 0xDFFF

/-- The character of a surrogate pair. -/
def pairChar (high low : Nat) : Char :=
  Char.ofNat (0x10000 + (high - 0xD800) * 0x400 + (low - 0xDC00))

/-- Move behind one given character of the second half of a surrogate pair. -/
def expectInPair (expected : Char) (c : Cursor) : Except Failure Cursor :=
  match c.rest with
  | [] => c.failHere .endInString
  | ch :: _ => if ch = expected then .ok c.next else c.failPeek .endOfHexEscape

/-- Read an escape by number, behind its letter. -/
def readCodeEscape (c : Cursor) : Except Failure (Char × Cursor) := do
  let (high, c) ← readHex c
  if isLowSurrogate high then c.failHere .loneSurrogate
  else if isHighSurrogate high then
    let c ← expectInPair '\\' c
    let c ← expectInPair 'u' c
    let (low, c) ← readHex c
    if isLowSurrogate low then return (pairChar high low, c) else c.failHere .loneSurrogate
  else return (Char.ofNat high, c)

/-- Read an escape, behind its backslash. -/
def readEscape (c : Cursor) : Except Failure (Char × Cursor) :=
  match c.rest with
  | [] => c.failHere .endInString
  | 'u' :: _ => readCodeEscape c.next
  | ch :: _ =>
    match letterEscape? ch with
    | some plain => .ok (plain, c.next)
    | none => c.failPeek .invalidEscape

/-! ## Whole strings -/

/-- Read characters up to the closing quote; `taken` holds those already read,
the last one first. -/
def readChars : Nat → List Char → Cursor → Except Failure (List Char × Cursor)
  | 0, _, c => c.failHere .endInString
  | steps + 1, taken, c =>
    match c.rest with
    | [] => c.failHere .endInString
    | '"' :: _ => .ok (taken.reverse, c.next)
    | '\\' :: _ => do
      let (ch, c) ← readEscape c.next
      readChars steps (ch :: taken) c
    | ch :: _ =>
      if ch.toNat < 0x20 then c.failPeek .controlCharacter
      else readChars steps (ch :: taken) c.next

/-- Read a string, behind its opening quote. -/
def readString (c : Cursor) : Except Failure (String × Cursor) := do
  let (chars, c) ← readChars (c.rest.length + 1) [] c
  return (String.ofList chars, c)

end GraphFilter.Json
