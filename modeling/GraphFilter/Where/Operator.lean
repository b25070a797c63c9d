/-!
# Operators and combinators

The operator names of a filter and the two ways to combine conditions.
-/

namespace GraphFilter

/-! ## Operators -/

/-- How a field is compared.  A name that is no operator is kept. -/
inductive Operator where
  | eq
  | neq
  | gt
  | gte
  | lt
  | lte
  | inq
  | nin
  | like
  | nlike
  | unsupported (name : String)
deriving DecidableEq

namespace Operator

/-- The operators a filter may use. -/
def supported : List Operator :=
  [eq, neq, gt, gte, lt, lte, inq, nin, like, nlike]

/-- The name of an operator in a filter. -/
def name : Operator → String
  | eq => "eq"
  | neq => "neq"
  | gt => "gt"
  | gte => "gte"
  | lt => "lt"
  | lte => "lte"
  | inq => "inq"
  | nin => "nin"
  | like => "like"
  | nlike => "nlike"
  | unsupported name => name

/-- The operator of a name. -/
def ofName (s : String) : Operator :=
  match supported.find? fun op => op.name == s with
  | some op => op
  | none => unsupported s

/-- Whether the operator is one that a filter may use. -/
def isSupported : Operator → Bool
  | unsupported _ => false
  | _ => true

/-- Reading a name and writing it again gives the name. -/
@[simp]
theorem name_ofName (s : String) : (ofName s).name = s := by
  unfold ofName
  split
  · next op h => simpa using List.find?_some h
  · rfl

end Operator

/-! ## Combinators -/

/-- How the children of a group are combined. -/
inductive Combinator where
  | and
  | or
deriving DecidableEq

namespace Combinator

/-- The key of a group in a filter. -/
def key : Combinator → String
  | and => "and"
  | or => "or"

/-- The combinator of a key, if the key names one. -/
def ofKey? (s : String) : Option Combinator :=
  if s = "and" then some and else if s = "or" then some or else none

@[simp]
theorem ofKey?_key (c : Combinator) : ofKey? c.key = some c := by
  cases c <;> rfl

/-- Combinators are told apart by their keys. -/
theorem key_injective {c d : Combinator} (h : c.key = d.key) : c = d := by
  have hboth := ofKey?_key c
  rw [h, ofKey?_key] at hboth
  exact (Option.some.inj hboth).symm

/-- Only the two keys name a combinator. -/
theorem ofKey?_eq_some_iff {s : String} {c : Combinator} : ofKey? s = some c ↔ s = c.key := by
  constructor
  · intro h
    unfold ofKey? at h
    split at h
    · next hs => cases h; exact hs
    · split at h
      · next hs => cases h; exact hs
      · cases h
  · rintro rfl
    simp

end Combinator

end GraphFilter
