import GraphFilter.Json.Strings
import GraphFilter.Json.Numbers

/-!
# Reading values

The grammar of values.  Arrays and objects may be nested to a fixed depth, which
is what the recursion runs on; the loops over elements and members are bounded by
the characters that are left.
-/

namespace GraphFilter.Json

/-! ## Punctuation -/

/-- Number of arrays and objects that may be open at once. -/
def depthLimit : Nat := 127

/-- Read the letters of a word behind its first one. -/
def readWord : List Char → Cursor → Except Failure Cursor
  | [], c => .ok c
  | letter :: letters, c =>
    match c.rest with
    | [] => c.failHere .endInValue
    | ch :: _ => if ch = letter then readWord letters c.next else c.failPeek .expectedWord

/-- Find out whether another element follows, and move to it; `first` says that
none has been read. -/
def nextItem (first : Bool) (c : Cursor) : Except Failure (Bool × Cursor) :=
  let c := c.skipSpace
  match c.rest with
  | [] => c.failPeek .endInList
  | ch :: _ =>
    if ch = ']' then .ok (false, c)
    else if first then .ok (true, c)
    else if ch = ',' then
      let c := c.next.skipSpace
      match c.rest with
      | [] => c.failPeek .endInValue
      | ch :: _ => if ch = ']' then c.failPeek .trailingComma else .ok (true, c)
    else c.failPeek .expectedListEnd

/-- Read a key at its opening quote. -/
def readKey (c : Cursor) : Except Failure (Option String × Cursor) :=
  match c.rest with
  | [] => c.failPeek .endInValue
  | ch :: _ =>
    if ch = '"' then (readString c.next).map fun (key, c) => (some key, c)
    else if ch = '\x7d' then c.failPeek .trailingComma
    else c.failPeek .keyNotString

/-- Read the key of the next member, if another one follows; `first` says that
none has been read. -/
def nextKey (first : Bool) (c : Cursor) : Except Failure (Option String × Cursor) :=
  let c := c.skipSpace
  match c.rest with
  | [] => c.failPeek .endInObject
  | ch :: _ =>
    if ch = '\x7d' then .ok (none, c)
    else if first then readKey c
    else if ch = ',' then readKey c.next.skipSpace
    else c.failPeek .expectedObjectEnd

/-- Move behind the colon between a key and its value. -/
def readColon (c : Cursor) : Except Failure Cursor :=
  let c := c.skipSpace
  match c.rest with
  | [] => c.failPeek .endInObject
  | ch :: _ => if ch = ':' then .ok c.next else c.failPeek .expectedColon

/-! ## Elements and members -/

/-- Read the elements of an array up to and including its closing bracket;
`taken` holds those already read, the last one first. -/
def readItems {α : Type} (read : Cursor → Except Failure (α × Cursor)) :
    Nat → List α → Cursor → Except Failure (List α × Cursor)
  | 0, _, c => c.failPeek .endInList
  | steps + 1, taken, c => do
    let (more, c) ← nextItem taken.isEmpty c
    if more then
      let (item, c) ← read c
      readItems read steps (item :: taken) c
    else return (taken.reverse, c.next)

/-- Read the members of an object up to and including its closing brace.  What
follows a key is read by `read`, which also takes the member in. -/
def readMembers {σ : Type} (read : σ → String → Cursor → Except Failure (σ × Cursor)) :
    Nat → Bool → σ → Cursor → Except Failure (σ × Cursor)
  | 0, _, _, c => c.failPeek .endInObject
  | steps + 1, first, state, c => do
    let (key, c) ← nextKey first c
    match key with
    | none => return (state, c.next)
    | some key =>
      let (state, c) ← read state key c
      readMembers read steps false state c

/-! ## Values -/

/-- Read a value that is neither an array nor an object. -/
def readScalar (c : Cursor) : Except Failure (Value × Cursor) :=
  match c.rest with
  | [] => c.failPeek .endInValue
  | ch :: _ =>
    if ch = 'n' then (readWord ['u', 'l', 'l'] c.next).map fun c => (.null, c)
    else if ch = 't' then (readWord ['r', 'u', 'e'] c.next).map fun c => (.bool true, c)
    else if ch = 'f' then (readWord ['a', 'l', 's', 'e'] c.next).map fun c => (.bool false, c)
    else if ch = '"' then (readString c.next).map fun (s, c) => (.string s, c)
    else if ch = '-' || ch.isDigit then (readNumber c).map fun (n, c) => (.number n, c)
    else c.failPeek .expectedValue

/-- Whether the next character opens an array or an object. -/
def Cursor.opens (c : Cursor) : Bool :=
  match c.rest with
  | [] => false
  | ch :: _ => ch == '[' || ch == '\x7b'

/-- Read a value in which `depth` more arrays and objects may be nested. -/
def readValue : Nat → Cursor → Except Failure (Value × Cursor)
  | 0, c =>
    let c := c.skipSpace
    if c.opens then c.failPeek .tooDeep else readScalar c
  | depth + 1, c =>
    let c := c.skipSpace
    match c.rest with
    | '[' :: _ =>
      (readItems (readValue depth) (c.rest.length + 1) [] c.next).map fun (items, c) =>
        (.array items, c)
    | '\x7b' :: _ =>
      let member (members : List (String × Value)) (key : String) (c : Cursor) := do
        let c ← readColon c
        let (value, c) ← readValue depth c
        return (Value.insertMember key value members, c)
      (readMembers member (c.rest.length + 1) true [] c.next).map fun (members, c) =>
        (.object members, c)
    | _ => readScalar c

/-! ## Whole texts -/

/-- Read a whole text: nothing but spaces may follow what `read` takes. -/
def readWhole? {α : Type} (read : Cursor → Except Failure (α × Cursor)) (text : String) :
    Except Error α :=
  match read (Cursor.start text) with
  | .error failure => .error failure.toError
  | .ok (value, c) =>
    let c := c.skipSpace
    if c.rest.isEmpty then .ok value else .error ⟨.trailingCharacters, some c.peek⟩

/-- The value of a whole text. -/
def parse (text : String) : Except Error Value :=
  readWhole? (readValue depthLimit) text

end GraphFilter.Json
