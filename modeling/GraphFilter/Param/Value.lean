import GraphFilter.Json.Value
import GraphFilter.Json.Printer
import GraphFilter.Decimal.Literal
import GraphFilter.Text.Blank

/-!
# Parameter values

The typed values that a query's placeholders are bound to.  A whole number in the
range of signed 64-bit integers is always an integer here, however it was written;
maps are sorted by key.
-/

namespace GraphFilter

open Decimal (Binary64)

/-! ## Values -/

/-- A value bound to a placeholder. -/
inductive Param where
  | null
  | bool (value : Bool)
  | int (value : Int64)
  | float (value : Binary64)
  | string (value : String)
  | list (items : List Param)
  | map (entries : List (String × Param))
deriving Inhabited

/-- Insert an entry into a list sorted by key; an entry of the same key is
replaced. -/
def insertByKey {α : Type} (key : String) (value : α) : List (String × α) → List (String × α)
  | [] => [(key, value)]
  | (k, v) :: rest =>
    if key < k then (key, value) :: (k, v) :: rest
    else if key = k then (key, value) :: rest
    else (k, v) :: insertByKey key value rest

/-- The keys after an insertion are the new one and those before. -/
theorem mem_keys_insertByKey {α : Type} {key k : String} {value : α} {entries : List (String × α)} :
    k ∈ (insertByKey key value entries).map Prod.fst ↔ k = key ∨ k ∈ entries.map Prod.fst := by
  induction entries with
  | nil => simp [insertByKey]
  | cons entry rest ih =>
    obtain ⟨k', v'⟩ := entry
    simp only [insertByKey]
    split
    · simp
    · split
      · next h => simp [h]
      · simp only [List.map_cons, List.mem_cons, ih]
        grind

/-- After an insertion, the new key has the new value. -/
@[simp]
theorem lookup_insertByKey_self {α : Type} (key : String) (value : α)
    (entries : List (String × α)) :
    (insertByKey key value entries).lookup key = some value := by
  induction entries with
  | nil => simp [insertByKey]
  | cons entry rest ih =>
    obtain ⟨k, v⟩ := entry
    simp only [insertByKey]
    split
    · simp
    · split
      · simp
      · next h =>
        have hne : (key == k) = false := by simpa using h
        simp [List.lookup_cons, hne, ih]

namespace Param

/-! ## Numbers -/

/-- Integers that a query parameter can hold. -/
def HoldsInteger (n : Int) : Prop :=
  -0x8000000000000000 ≤ n ∧ n < 0x8000000000000000

instance (n : Int) : Decidable (HoldsInteger n) :=
  inferInstanceAs (Decidable (_ ∧ _))

/-- A floating-point number, as an integer if it is whole and in range. -/
def ofFloat (x : Binary64) : Param :=
  match x.toInt? with
  | some n => if HoldsInteger n then int (Int64.ofInt n) else float x
  | none => float x

/-- An integer, as the nearest floating-point number if it is out of range. -/
def ofInteger (n : Int) : Param :=
  if HoldsInteger n then int (Int64.ofInt n)
  else
    match Binary64.ofInt n with
    | some x => float x
    | none => null

/-- A JSON number. -/
def ofNumber : Json.Number → Param
  | .int n _ => ofInteger n
  | .float x => ofFloat x

/-- The number that a text denotes, blanks around it aside. -/
def ofNumericText? (s : String) : Option Param :=
  let s := Text.trim s.toList
  match Decimal.readInteger? s with
  | some n =>
    if HoldsInteger n then some (int (Int64.ofInt n))
    else (Decimal.readLiteral? s).bind fun l => l.nearest.map ofFloat
  | none => (Decimal.readLiteral? s).bind fun l => l.nearest.map ofFloat

/-- The number that a JSON value denotes: a number itself, or a string that is
the text of a finite one. -/
def numeric? : Json.Value → Option Param
  | .number n => some (ofNumber n)
  | .string s => ofNumericText? s
  | _ => none

/-! ## To and from JSON -/

mutual

/-- The parameter for a JSON value. -/
def ofJson : Json.Value → Param
  | .null => null
  | .bool b => bool b
  | .number n => ofNumber n
  | .string s => string s
  | .array items => list (ofItems items)
  | .object members => map (ofMembers members)

/-- The parameters for array elements. -/
def ofItems : List Json.Value → List Param
  | [] => []
  | v :: rest => ofJson v :: ofItems rest

/-- The parameters for object members, sorted by key. -/
def ofMembers : List (String × Json.Value) → List (String × Param)
  | [] => []
  | (key, v) :: rest => insertByKey key (ofJson v) (ofMembers rest)

end

/-- Signed 64-bit integers are among the integers that JSON keeps. -/
theorem keepsInteger_toInt (n : Int64) : Json.KeepsInteger n.toInt := by
  have low := n.le_toInt
  have high := n.toInt_lt
  constructor <;> omega

mutual

/-- The JSON value of a parameter, without type tags. -/
def toJson : Param → Json.Value
  | null => .null
  | bool b => .bool b
  | int n => .number (.int n.toInt (keepsInteger_toInt n))
  | float x => .number (.float x)
  | string s => .string s
  | list items => .array (toItems items)
  | map entries => .object (toMembers entries)

/-- The JSON values of list items. -/
def toItems : List Param → List Json.Value
  | [] => []
  | p :: rest => toJson p :: toItems rest

/-- The JSON members of map entries. -/
def toMembers : List (String × Param) → List (String × Json.Value)
  | [] => []
  | (key, p) :: rest => (key, toJson p) :: toMembers rest

end

end Param

end GraphFilter
