import GraphFilter.Where.Tree
import GraphFilter.Json.Value

/-!
# Where objects

The condition part of a filter as it was given: a tree whose leaves compare a
field with a JSON operand.  Nothing is checked here, so that an unknown operator
or an operand of the wrong type can still be reported or left out later.
-/

namespace GraphFilter

/-- A comparison of a field.  An operand that is absent means the same as `null`. -/
structure Comparison where
  field : String
  operator : Operator
  operand : Option Json.Value

/-- A where object: conditions in input order, all of which must hold. -/
abbrev Where := Tree Comparison

namespace Comparison

/-- The operand, if it is neither absent nor `null`. -/
def operand? (c : Comparison) : Option Json.Value :=
  c.operand.filter fun v => !v.isNull

end Comparison

namespace Where

/-! ## Building -/

/-- The where object without conditions. -/
def empty : Where :=
  []

/-- Compare a field. -/
def compare (w : Where) (field : String) (operator : Operator) (operand : Json.Value) : Where :=
  w.addLeaf ⟨field, operator, some operand⟩

/-- Compare a field for equality. -/
def equal (w : Where) (field : String) (operand : Json.Value) : Where :=
  w.compare field .eq operand

/-- Require a field to be null. -/
def isNull (w : Where) (field : String) : Where :=
  w.addLeaf ⟨field, .eq, none⟩

/-- Require all of the children. -/
def and (w : Where) (children : List Where) : Where :=
  w.addChildren .and children

/-- Require the children in alternation. -/
def or (w : Where) (children : List Where) : Where :=
  w.addChildren .or children

end Where

end GraphFilter
