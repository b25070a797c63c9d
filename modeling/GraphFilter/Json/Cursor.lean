import GraphFilter.Json.Error

/-!
# Reading positions

A cursor is the unread part of a text together with its place.  A reader returns
a value and the cursor behind it, or a failure.  Failures that are found in the
characters know their place at once; failures about the shape of a value that was
read get theirs when the surrounding object or array is closed.
-/

namespace GraphFilter.Json

/-! ## Positions -/

/-- Place behind a character. -/
def Position.advance (p : Position) (c : Char) : Position :=
  if c = '\n' then ⟨p.line + 1, 0⟩ else ⟨p.line, p.column + c.utf8Size⟩

/-- Place behind the first byte of a character. -/
def Position.advanceByte (p : Position) (c : Char) : Position :=
  if c = '\n' then ⟨p.line + 1, 0⟩ else ⟨p.line, p.column + 1⟩

/-- Place behind the next `count` bytes of a text; nothing if it is shorter. -/
def Position.advanceBytes (p : Position) : Nat → List Char → Option Position
  | 0, _ => some p
  | _ + 1, [] => none
  | count + 1, c :: rest =>
    if count + 1 < c.utf8Size then some ⟨p.line, p.column + (count + 1)⟩
    else (p.advance c).advanceBytes (count + 1 - c.utf8Size) rest

/-! ## Cursors -/

/-- The unread part of a text and its place. -/
structure Cursor where
  rest : List Char
  position : Position

namespace Cursor

/-- The cursor in front of a text. -/
def start (text : String) : Cursor :=
  ⟨text.toList, ⟨1, 0⟩⟩

/-- Move behind the next character. -/
def next (c : Cursor) : Cursor :=
  match c.rest with
  | [] => c
  | ch :: rest => ⟨rest, c.position.advance ch⟩

/-- Place of an error that is noticed by looking at the next byte. -/
def peek (c : Cursor) : Position :=
  match c.rest with
  | [] => c.position
  | ch :: _ => c.position.advanceByte ch

/-- Place behind the whole text. -/
def finish (c : Cursor) : Position :=
  c.rest.foldl Position.advance c.position

/-- The characters that may stand between the parts of a value. -/
def isSpace (c : Char) : Bool :=
  c == ' ' || c == '\n' || c == '\t' || c == '\r'

/-- Move behind the spaces at the front of `rest`. -/
def skipFrom (position : Position) : List Char → Cursor
  | [] => ⟨[], position⟩
  | ch :: rest => if isSpace ch then skipFrom (position.advance ch) rest else ⟨ch :: rest, position⟩

/-- Move behind spaces. -/
def skipSpace (c : Cursor) : Cursor :=
  skipFrom c.position c.rest

end Cursor

/-! ## Results -/

/-- Why reading stopped: a fault with its place, or a fault found behind the
cursor whose place is still open. -/
inductive Failure where
  | placed (fault : Fault) (position : Position)
  | unplaced (fault : Fault) (behind : Cursor)

namespace Cursor

/-- Fail at the cursor. -/
def failHere {α : Type} (c : Cursor) (fault : Fault) : Except Failure α :=
  .error (.placed fault c.position)

/-- Fail at the byte that was looked at. -/
def failPeek {α : Type} (c : Cursor) (fault : Fault) : Except Failure α :=
  .error (.placed fault c.peek)

end Cursor

namespace Failure

/-- The error that is reported: a place that is still open stays unknown. -/
def toError : Failure → Error
  | placed fault position => ⟨fault, some position⟩
  | unplaced fault _ => ⟨fault, none⟩

/-- Settle an open place at the end of an object: behind the closing brace if it
comes next. -/
def closeObject : Failure → Failure
  | placed fault position => placed fault position
  | unplaced fault behind =>
    let c := behind.skipSpace
    match c.rest with
    | '\x7d' :: _ => placed fault c.next.position
    | _ => placed fault c.position

/-- Settle an open place at the end of an array: behind the closing bracket, or
behind a comma and the spaces after it, if one comes next. -/
def closeArray : Failure → Failure
  | placed fault position => placed fault position
  | unplaced fault behind =>
    let c := behind.skipSpace
    match c.rest with
    | ']' :: _ => placed fault c.next.position
    | ',' :: _ => placed fault c.next.skipSpace.position
    | _ => placed fault c.position

end Failure

end GraphFilter.Json
