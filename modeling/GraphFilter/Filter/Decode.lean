import GraphFilter.Filter.Basic
import GraphFilter.Filter.Error
import GraphFilter.Where.Decode
import GraphFilter.Json.Records

/-!
# Filters from JSON texts

A filter is read from an object.  Its members may come in any order and be left
out, unknown members are passed over, and none may be repeated.  An array of the
members' values in their fixed order is taken as well.
-/

namespace GraphFilter

open Json (Cursor Failure Fault)

/-! ## Loosely typed members -/

/-- An array of strings. -/
def stringsOfJson (what : String) : List Json.Value → Except Fault (List String)
  | [] => .ok []
  | .string s :: rest => do
    let strings ← stringsOfJson what rest
    return s :: strings
  | other :: _ => .error (.rejected (what ++ " entries must be strings, got " ++ other.print))

/-- Order entries: one string or an array of them. -/
def orderOfJson : Json.Value → Except Fault (List String)
  | .null => .ok []
  | .string entry => .ok [entry]
  | .array items => stringsOfJson "order" items
  | other =>
    .error (.rejected ("order must be a string or an array of strings, got " ++ other.print))

/-- Whether a value in a field selection selects the field. -/
def isTruthy : Json.Value → Bool
  | .null => false
  | .bool b => b
  | .number (.int n _) => n != 0
  | .number (.float x) => !x.isZero
  | .string s => !s.isEmpty
  | .array _ => true
  | .object _ => true

/-- Field names: an array of them, or an object whose truthy members count. -/
def fieldsOfJson : Json.Value → Except Fault (List String)
  | .null => .ok []
  | .object members => .ok ((members.filter fun m => isTruthy m.2).map Prod.fst)
  | .array items => stringsOfJson "fields" items
  | other => .error (.rejected ("fields must be an object or an array, got " ++ other.print))

/-- A where object; a refusal is worded as an invalid filter. -/
def whereOfJson (v : Json.Value) : Except Fault Where :=
  match Where.ofJson v with
  | .ok w => .ok w
  | .error fault => .error (.rejected (FilterError.invalid fault.reason).message)

/-- A where object that may be missing. -/
def optionalWhereOfJson (v : Json.Value) : Except Fault (Option Where) :=
  if v.isNull then .ok none else (whereOfJson v).map some

/-! ## Members -/

/-- The members of a filter. -/
inductive FilterKey where
  | condition
  | order
  | skip
  | limit
  | fields
deriving DecidableEq

namespace FilterKey

/-- All members, in the order of an array. -/
def all : List FilterKey :=
  [condition, order, skip, limit, fields]

/-- The name of a member. -/
def name : FilterKey → String
  | condition => "where"
  | order => "order"
  | skip => "skip"
  | limit => "limit"
  | fields => "fields"

/-- Read the value of a member into a filter. -/
def read (depth : Nat) (key : FilterKey) (f : Filter) (c : Cursor) :
    Except Failure (Filter × Cursor) := do
  match key with
  | condition =>
    let (w, c) ← Json.readConverted depth optionalWhereOfJson c
    return ({ f with condition := w }, c)
  | order =>
    let (entries, c) ← Json.readConverted depth orderOfJson c
    return ({ f with order := entries }, c)
  | skip =>
    let (n, c) ← Json.readNatural c
    return ({ f with skip := n }, c)
  | limit =>
    let (n, c) ← Json.readNatural c
    return ({ f with limit := n }, c)
  | fields =>
    let (names, c) ← Json.readConverted depth fieldsOfJson c
    return ({ f with fields := names }, c)

end FilterKey

/-- How a filter is read. -/
def Filter.record : Json.Record Filter FilterKey where
  expected := "struct Filter"
  keys := FilterKey.all
  name := FilterKey.name
  start := Filter.empty
  readField := FilterKey.read
  mayEndEarly := true

/-! ## Whole texts -/

/-- Greatest size of a text, in bytes. -/
def sizeLimit : Nat := 65536

/-- Read a text of limited size. -/
def readLimited {α : Type} (read : Cursor → Except Failure (α × Cursor)) (text : String) :
    Except FilterError α :=
  if sizeLimit < text.utf8ByteSize then .error (.tooLarge sizeLimit)
  else
    match Json.readWhole? read text with
    | .ok a => .ok a
    | .error e => .error (.invalidJson e)

/-- The filter of a text. -/
def Filter.parse (text : String) : Except FilterError Filter :=
  readLimited (Filter.record.read Json.depthLimit) text

/-- The where object of a text. -/
def Where.parse (text : String) : Except FilterError Where :=
  readLimited (Json.readConverted Json.depthLimit whereOfJson) text

end GraphFilter
