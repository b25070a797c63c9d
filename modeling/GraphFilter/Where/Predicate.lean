import GraphFilter.Where.Comparison
import GraphFilter.Filter.Error
import GraphFilter.Cypher.Name
import GraphFilter.Param.Bindings
import GraphFilter.Placeholder

/-!
# Predicates

A predicate is a comparison that was checked: its operator is known and its
operand has a type that the operator takes.  Binding it gives the operand a
placeholder.
-/

namespace GraphFilter

/-! ## Predicates and their text -/

/-- How a predicate relates a field to its operand.  Membership and containment
may be negated. -/
inductive Relation where
  | equal
  | notEqual
  | greater
  | greaterEqual
  | less
  | lessEqual
  | member (negated : Bool)
  | contains (negated : Bool)
deriving DecidableEq

/-- What a predicate asks of a field. -/
inductive Test (α : Type) where
  | null (negated : Bool)
  | relates (relation : Relation) (operand : α)

/-- A test of a field. -/
structure Predicate (α : Type) where
  field : String
  test : Test α

/-- An operand with its placeholder. -/
structure Bound where
  placeholder : String
  value : Param

/-- The word or symbol of a relation. -/
def Relation.symbol : Relation → String
  | equal => "="
  | notEqual => "<>"
  | greater => ">"
  | greaterEqual => ">="
  | less => "<"
  | lessEqual => "<="
  | member _ => "IN"
  | contains _ => "CONTAINS"

/-- Whether a relation is negated by a word in front of the predicate. -/
def Relation.isNegated : Relation → Bool
  | member negated => negated
  | contains negated => negated
  | _ => false

/-- A property of the matched node. -/
def property (node field : String) : String :=
  node ++ "." ++ Cypher.quote field

/-- The text of a bound predicate. -/
def Predicate.render (node : String) (p : Predicate Bound) : String :=
  match p.test with
  | .null negated => property node p.field ++ (if negated then " IS NOT NULL" else " IS NULL")
  | .relates relation operand =>
    (if relation.isNegated then "NOT " else "") ++ property node p.field ++ " "
      ++ relation.symbol ++ " $" ++ operand.placeholder

/-- The binding of a bound predicate. -/
def Predicate.binding? (p : Predicate Bound) : Option (String × Param) :=
  match p.test with
  | .null _ => none
  | .relates _ operand => some (operand.placeholder, operand.value)

/-! ## Checking -/

namespace Comparison

/-- The kind of operand that a relation takes. -/
inductive OperandKind where
  | scalar
  | number
  | list
deriving DecidableEq

/-- The relation that an operator stands for and the operand it takes. -/
def relation? : Operator → Option (Relation × OperandKind)
  | .eq => some (.equal, .scalar)
  | .neq => some (.notEqual, .scalar)
  | .gt => some (.greater, .number)
  | .gte => some (.greaterEqual, .number)
  | .lt => some (.less, .number)
  | .lte => some (.lessEqual, .number)
  | .inq => some (.member false, .list)
  | .nin => some (.member true, .list)
  | .like => some (.contains false, .scalar)
  | .nlike => some (.contains true, .scalar)
  | .unsupported _ => none

/-- Convert an operand to the kind that is asked for. -/
def convert (field operator : String) (kind : OperandKind) (operand : Json.Value) :
    Except FilterError Param :=
  match kind, operand with
  | .scalar, .array _ => .error (.expectedScalar field operator)
  | .scalar, .object _ => .error (.expectedScalar field operator)
  | .scalar, v => .ok (.ofJson v)
  | .number, v =>
    match Param.numeric? v with
    | some p => .ok p
    | none => .error (.notNumeric field operator v)
  | .list, .array items => .ok (.ofJson (.array items))
  | .list, _ => .error (.expectedList field operator)

/-- Check a comparison.  Only equality and inequality may go without an operand;
they then test for null. -/
def check (c : Comparison) : Except FilterError (Predicate Param) :=
  match relation? c.operator with
  | none => .error (.unsupportedOperator c.field c.operator.name)
  | some (relation, kind) =>
    match c.operand?, relation with
    | none, .equal => .ok ⟨c.field, .null false⟩
    | none, .notEqual => .ok ⟨c.field, .null true⟩
    | none, _ => .error (.expectedScalar c.field c.operator.name)
    | some operand, relation =>
      (convert c.field c.operator.name kind operand).map fun p => ⟨c.field, .relates relation p⟩

end Comparison

/-! ## Binding -/

/-- Give the operand of a predicate a placeholder.  A test for null needs none. -/
def Predicate.bind (p : Predicate Param) (names : NameSupply) : Predicate Bound × NameSupply :=
  match p.test with
  | .null negated => (⟨p.field, .null negated⟩, names)
  | .relates relation value =>
    let (name, names) := names.next p.field
    (⟨p.field, .relates relation ⟨name, value⟩⟩, names)

end GraphFilter
