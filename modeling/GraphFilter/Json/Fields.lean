import GraphFilter.Json.Skipper
import GraphFilter.Json.Printer
import GraphFilter.Text.Quoted

/-!
# Typed fields

Readers for the fields of a record.  A field that may be missing may also be
`null`.  A value of another type is refused with a description of what was found.
-/

namespace GraphFilter.Json

/-- Description of a value in a message. -/
def Value.found : Value → String
  | .null => "null"
  | .bool b => "boolean `" ++ (if b then "true" else "false") ++ "`"
  | .number (.int n _) => "integer `" ++ toString n ++ "`"
  | .number (.float x) => "floating point `" ++ x.text ++ "`"
  | .string s => "string " ++ Text.quoted s
  | .array _ => "sequence"
  | .object _ => "map"

/-- Read a value that should be neither an array nor an object; these are refused
before their bracket. -/
def readFlat (expected : String) (c : Cursor) : Except Failure (Value × Cursor) :=
  let c := c.skipSpace
  match c.rest with
  | '[' :: _ => c.failHere (.wrongType "sequence" expected)
  | '\x7b' :: _ => c.failHere (.wrongType "map" expected)
  | _ => readScalar c

/-- Refuse a value of the wrong type, behind it. -/
def refuse {α : Type} (value : Value) (expected : String) (c : Cursor) : Except Failure α :=
  c.failHere (.wrongType value.found expected)

/-- Read an optional natural number of 64 bits. -/
def readNatural (c : Cursor) : Except Failure (Option UInt64 × Cursor) := do
  let (value, c) ← readFlat "u64" c
  match value with
  | .null => return (none, c)
  | .number (.int n _) =>
    if 0 ≤ n then return (some (UInt64.ofNat n.toNat), c)
    else c.failHere (.wrongValue value.found "u64")
  | _ => refuse value "u64" c

/-- Read an optional string. -/
def readText (c : Cursor) : Except Failure (Option String × Cursor) := do
  let (value, c) ← readFlat "a string" c
  match value with
  | .null => return (none, c)
  | .string s => return (some s, c)
  | _ => refuse value "a string" c

/-- Read an optional boolean. -/
def readFlag (c : Cursor) : Except Failure (Option Bool × Cursor) := do
  let (value, c) ← readFlat "a boolean" c
  match value with
  | .null => return (none, c)
  | .bool b => return (some b, c)
  | _ => refuse value "a boolean" c

/-- Read a value of any shape and convert it; a refusal has no place of its own. -/
def readConverted {α : Type} (depth : Nat) (convert : Value → Except Fault α) (c : Cursor) :
    Except Failure (α × Cursor) := do
  let (value, c) ← readValue depth c
  match convert value with
  | .ok result => return (result, c)
  | .error fault => .error (.unplaced fault c)

end GraphFilter.Json
