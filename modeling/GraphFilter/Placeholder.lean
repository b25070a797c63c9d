/-!
# Placeholder names

Names of query parameters are made from the field they belong to and a number.
Each field is numbered on its own, and a name that was handed out for any field
is never handed out again.
-/

namespace GraphFilter

/-! ## Candidates -/

/-- Characters that may stand in the name of a parameter. -/
def isParamChar (c : Char) : Bool :=
  c.isAlphanum || c == '_'

/-- The text in front of the number: the field with every other character
replaced, or a fixed word for the field without a name. -/
def placeholderBase (field : String) : String :=
  if field.isEmpty then "param"
  else String.ofList (field.toList.map fun c => if isParamChar c then c else '_')

/-- A base with its number. -/
def numbered (base : String) (number : Nat) : String :=
  base ++ toString number

/-! ## Supply -/

/-- The state of a supply of names: the number reached for each field, the latest
entry first, and the names handed out, the latest first. -/
structure NameSupply where
  reached : List (String × Nat)
  issued : List String
deriving DecidableEq

namespace NameSupply

/-- A supply that has handed out nothing. -/
def empty : NameSupply :=
  ⟨[], []⟩

/-- The number reached for a field. -/
def count (s : NameSupply) (field : String) : Nat :=
  (s.reached.lookup field).getD 0

/-- Whether nothing has been handed out. -/
def isEmpty (s : NameSupply) : Bool :=
  s.issued.isEmpty

/-- The first number from `number` on whose name is not taken, given that one of
the first `steps + 1` is not. -/
def firstFree (taken : List String) (base : String) : Nat → Nat → Nat
  | 0, number => number
  | steps + 1, number =>
    if taken.contains (numbered base number) then firstFree taken base steps (number + 1)
    else number

/-- Hand out a name for a field.  Numbers go on from the one reached for the
field; as many names as were handed out may have to be passed over. -/
def next (s : NameSupply) (field : String) : String × NameSupply :=
  let base := placeholderBase field
  let number := firstFree s.issued base s.issued.length (s.count field + 1)
  let name := numbered base number
  (name, ⟨(field, number) :: s.reached, name :: s.issued⟩)

/-- The name handed out is recorded. -/
@[simp]
theorem issued_next (s : NameSupply) (field : String) :
    (s.next field).2.issued = (s.next field).1 :: s.issued :=
  rfl

end NameSupply

end GraphFilter
