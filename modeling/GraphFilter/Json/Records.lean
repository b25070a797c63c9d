import GraphFilter.Json.Fields

/-!
# Records

Reading an object, or an array in a fixed order, into a structure.  Members are
known by name; a known member that comes twice is refused, and unknown members are
passed over.
-/

namespace GraphFilter.Json

/-- How a structure `σ` is read from members known by keys `κ`. -/
structure Record (σ κ : Type) where
  /-- The name of the structure in messages. -/
  expected : String
  /-- The keys in the order of an array. -/
  keys : List κ
  /-- The name of a key in an object. -/
  name : κ → String
  /-- The structure before any member was read. -/
  start : σ
  /-- Read the value of a member at a given depth. -/
  readField : Nat → κ → σ → Cursor → Except Failure (σ × Cursor)
  /-- Whether an array may be shorter than the list of keys. -/
  mayEndEarly : Bool

namespace Record

variable {σ κ : Type}

/-! ## Objects -/

/-- The key of a name. -/
def key? (r : Record σ κ) (name : String) : Option κ :=
  r.keys.find? fun k => r.name k == name

/-- Read what follows the name of a member.  The state is the structure so far and
the names of the known members that were read. -/
def readMember (r : Record σ κ) (depth : Nat) (state : σ × List String) (name : String)
    (c : Cursor) : Except Failure ((σ × List String) × Cursor) := do
  match r.key? name with
  | none =>
    let c ← readColon c
    let c ← skipValue c
    return (state, c)
  | some key =>
    if state.2.contains name then .error (.unplaced (.repeatedField name) c)
    else
      let c ← readColon c
      let (value, c) ← r.readField depth key state.1 c
      return ((value, name :: state.2), c)

/-! ## Arrays -/

/-- Read elements for the keys that are left; `index` counts those before. -/
def readElements (r : Record σ κ) (depth : Nat) :
    List κ → Nat → σ → Cursor → Except Failure (σ × Cursor)
  | [], _, state, c => .ok (state, c)
  | key :: keys, index, state, c => do
    let (more, c) ← nextItem (index == 0) c
    if more then
      let (state, c) ← r.readField depth key state c
      readElements r depth keys (index + 1) state c
    else if r.mayEndEarly then return (state, c)
    else
      let expected :=
        r.expected ++ " with " ++ toString r.keys.length ++ " elements"
      .error (.unplaced (.wrongLength index expected) c)

/-- Move behind the closing bracket of an array that must hold no more elements. -/
def endElements (c : Cursor) : Except Failure Cursor :=
  let c := c.skipSpace
  match c.rest with
  | [] => c.failPeek .endInList
  | ch :: _ =>
    if ch = ']' then .ok c.next
    else if ch = ',' then
      let c := c.next.skipSpace
      match c.rest with
      | ']' :: _ => c.failPeek .trailingComma
      | _ => c.failPeek .trailingCharacters
    else c.failPeek .trailingCharacters

/-! ## Both -/

/-- Read an object, behind its opening brace. -/
def readObject (r : Record σ κ) (depth : Nat) (c : Cursor) : Except Failure (σ × Cursor) :=
  match readMembers (r.readMember depth) (c.rest.length + 1) true (r.start, []) c with
  | .ok ((value, _), c) => .ok (value, c)
  | .error failure => .error failure.closeObject

/-- Read an array, behind its opening bracket. -/
def readArray (r : Record σ κ) (depth : Nat) (c : Cursor) : Except Failure (σ × Cursor) :=
  match r.readElements depth r.keys 0 r.start c with
  | .ok (value, c) => (endElements c).map fun c => (value, c)
  | .error failure => .error failure.closeArray

/-- Read a structure in which `depth` arrays and objects may be nested, its own
brackets included. -/
def read (r : Record σ κ) : Nat → Cursor → Except Failure (σ × Cursor)
  | 0, c =>
    let c := c.skipSpace
    if c.opens then c.failPeek .tooDeep else refuseScalar c
  | depth + 1, c =>
    let c := c.skipSpace
    match c.rest with
    | '[' :: _ => r.readArray depth c.next
    | '\x7b' :: _ => r.readObject depth c.next
    | _ => refuseScalar c
where
  /-- Refuse a value that is neither an object nor an array. -/
  refuseScalar (c : Cursor) : Except Failure (σ × Cursor) := do
    let (value, c) ← readScalar c
    refuse value r.expected c

end Record

end GraphFilter.Json
