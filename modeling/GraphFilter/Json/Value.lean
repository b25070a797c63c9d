import GraphFilter.Decimal.Binary64

/-!
# JSON values

Numbers are integers of 64 bits, signed or unsigned, or finite binary
floating-point numbers.  An object keeps the order in which its keys first
appeared.
-/

namespace GraphFilter.Json

/-! ## Numbers -/

/-- Integers that a JSON number keeps exactly: those of 64 bits, with or without
a sign. -/
def KeepsInteger (n : Int) : Prop :=
  -0x8000000000000000 ≤ n ∧ n < 0x10000000000000000

instance (n : Int) : Decidable (KeepsInteger n) :=
  inferInstanceAs (Decidable (_ ∧ _))

/-- A JSON number. -/
inductive Number where
  | int (value : Int) (keeps : KeepsInteger value)
  | float (value : Decimal.Binary64)
deriving DecidableEq

/-! ## Values -/

/-- A JSON value. -/
inductive Value where
  | null
  | bool (value : Bool)
  | number (value : Number)
  | string (value : String)
  | array (items : List Value)
  | object (members : List (String × Value))
deriving Inhabited

namespace Value

/-- Whether a value is `null`. -/
def isNull : Value → Bool
  | null => true
  | _ => false

/-- Store a member: a new key goes to the end, a known key keeps its place and
takes the new value. -/
def insertMember (key : String) (value : Value) : List (String × Value) → List (String × Value)
  | [] => [(key, value)]
  | (k, v) :: rest =>
    if k = key then (key, value) :: rest else (k, v) :: insertMember key value rest

/-- Storing a member adds its key at the end unless it is there already. -/
theorem keys_insertMember (key : String) (value : Value) (members : List (String × Value)) :
    (insertMember key value members).map Prod.fst =
      if key ∈ members.map Prod.fst then members.map Prod.fst
      else members.map Prod.fst ++ [key] := by
  induction members with
  | nil => simp [insertMember]
  | cons member rest ih =>
    obtain ⟨k, v⟩ := member
    by_cases h : k = key
    · simp [insertMember, h]
    · have h' : ¬ key = k := fun e => h e.symm
      simp only [insertMember, h, if_false, List.map_cons, ih, List.mem_cons, h', false_or]
      split <;> simp

end Value

end GraphFilter.Json
