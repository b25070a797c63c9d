import GraphFilter.Where.Comparison
import GraphFilter.Json.Printer

/-!
# Where objects from JSON

Each member of a where object is one condition.  The members `and` and `or` are
groups: arrays of where objects.  Any other member compares the field of its name,
either for equality with its value or, if the value is an object, by the operator
that is the first key of it.
-/

namespace GraphFilter

/-! ## Refusals -/

/-- Why a JSON value is no where object. -/
inductive WhereFault where
  | notAnObject (got : Json.Value)
  | notAnArray (key : String)
  | entryNotAnObject (key : String) (got : Json.Value)

/-- Wording of a refusal. -/
def WhereFault.reason : WhereFault → String
  | notAnObject got => "where must be an object, got " ++ got.print
  | notAnArray key => "'" ++ key ++ "' expects an array of where objects"
  | entryNotAnObject key got => "'" ++ key ++ "' entries must be objects, got " ++ got.print

/-! ## Decoding -/

/-- The comparison that a member outside the groups stands for. -/
def Comparison.ofJson (field : String) : Json.Value → Comparison
  | .object ((operator, operand) :: _) => ⟨field, .ofName operator, some operand⟩
  | .object [] => ⟨field, .unsupported "", none⟩
  | value => ⟨field, .eq, some value⟩

namespace Where

mutual

/-- The conditions of an object's members, in their order. -/
def ofMembers : List (String × Json.Value) → Except WhereFault Where
  | [] => .ok []
  | (key, value) :: rest => do
    let condition ← ofMember key value
    let conditions ← ofMembers rest
    return condition :: conditions

/-- The condition of one member. -/
def ofMember (key : String) : Json.Value → Except WhereFault (Condition Comparison)
  | .array items =>
    match Combinator.ofKey? key with
    | some c => do
      let children ← ofEntries key items
      return .group c children
    | none => .ok (.leaf (.ofJson key (.array items)))
  | value =>
    match Combinator.ofKey? key with
    | some _ => .error (.notAnArray key)
    | none => .ok (.leaf (.ofJson key value))

/-- The children of a group. -/
def ofEntries (key : String) : List Json.Value → Except WhereFault (List Where)
  | [] => .ok []
  | .object members :: rest => do
    let child ← ofMembers members
    let children ← ofEntries key rest
    return child :: children
  | other :: _ => .error (.entryNotAnObject key other)

end

/-- A member that is not called like a combinator is a comparison, whatever it holds. -/
theorem ofMember_of_ofKey?_eq_none {key : String} (h : Combinator.ofKey? key = none)
    (value : Json.Value) : ofMember key value = .ok (.leaf (.ofJson key value)) := by
  cases value <;> simp [ofMember, h]

/-- The where object of a JSON value; `null` is the one without conditions. -/
def ofJson : Json.Value → Except WhereFault Where
  | .null => .ok empty
  | .object members => ofMembers members
  | other => .error (.notAnObject other)

end Where

end GraphFilter
