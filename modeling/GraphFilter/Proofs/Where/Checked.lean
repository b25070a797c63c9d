import GraphFilter.Where.Predicate

/-!
# Well-formed comparisons

Which comparisons may stand in a query, said operator by operator: equality takes a
scalar or nothing, containment a scalar, an ordering something that denotes a
number, and membership an array.  Checking a comparison accepts exactly these, and
what it makes of them is determined by the operator and the operand alone.

Main results:

- Theorem {lit}`Comparison.isSome_check?`: checking accepts exactly the well-formed
  comparisons.
- Theorem {lit}`Comparison.accepts_of_check?`: what a checked comparison asks for.
-/

namespace GraphFilter

/-! ## Operators and operands -/

namespace Operator

/-- Whether an operator turns the sense of its symbol around. -/
def isNegated : Operator → Bool
  | nin | nlike => true
  | _ => false

/-- The symbol of an operator, if a filter may use it. -/
def symbol? : Operator → Option String
  | eq => some "="
  | neq => some "<>"
  | gt => some ">"
  | gte => some ">="
  | lt => some "<"
  | lte => some "<="
  | inq | nin => some "IN"
  | like | nlike => some "CONTAINS"
  | unsupported _ => none

/-- The value that an operator compares with: an ordering asks for a number, every
other operator takes the operand as it is. -/
def value? : Operator → Json.Value → Option Param
  | gt, v | gte, v | lt, v | lte, v => Param.numeric? v
  | _, v => some (Param.ofJson v)

end Operator

/-- Whether a value is neither an array nor an object. -/
def Json.Value.isScalar : Json.Value → Bool
  | .array _ | .object _ => false
  | _ => true

/-- Whether a value is an array. -/
def Json.Value.isArray : Json.Value → Bool
  | .array _ => true
  | _ => false

namespace Comparison

/-- Whether a comparison may stand in a query. -/
def isWellFormed (c : Comparison) : Bool :=
  match c.operator with
  | .eq | .neq => c.operand?.all Json.Value.isScalar
  | .like | .nlike => c.operand?.any Json.Value.isScalar
  | .gt | .gte | .lt | .lte => c.operand?.any fun v => (Param.numeric? v).isSome
  | .inq | .nin => c.operand?.any Json.Value.isArray
  | .unsupported _ => false

/-- The predicate of a comparison, if it is well-formed. -/
def check? (c : Comparison) : Option (Predicate Param) :=
  c.check.toOption

/-- What a well-formed comparison asks for: a test for null if there is no operand,
and otherwise the symbol of its operator and the value of its operand. -/
def Accepts (c : Comparison) (p : Predicate Param) : Prop :=
  p.field = c.field ∧
    match p.test with
    | .null negated => c.operand? = none ∧ c.operator = if negated then .neq else .eq
    | .relates relation value =>
      ∃ v, c.operand? = some v ∧ c.operator.value? v = some value ∧
        c.operator.symbol? = some relation.symbol ∧ c.operator.isNegated = relation.isNegated

/-! ## Checking -/

/-- Checking a comparison without an operand. -/
theorem check?_of_none {c : Comparison} (h : c.operand? = none) :
    c.check? = match c.operator with
      | .eq => some ⟨c.field, .null false⟩
      | .neq => some ⟨c.field, .null true⟩
      | _ => none := by
  unfold check? check
  rw [h]
  cases c.operator <;> rfl

/-- Checking a comparison with an operand. -/
theorem check?_of_some {c : Comparison} {v : Json.Value} (h : c.operand? = some v) :
    c.check? = (relation? c.operator).bind fun (relation, kind) =>
      (convert c.field c.operator.name kind v).toOption.map fun p =>
        ⟨c.field, .relates relation p⟩ := by
  unfold check? check
  rw [h]
  cases relation? c.operator with
  | none => rfl
  | some r =>
    rcases r with ⟨relation, kind⟩
    simp only [Option.bind_some]
    cases convert c.field c.operator.name kind v <;> rfl

/-- A conversion succeeds on the operands of its kind, and gives the value of the
operand. -/
theorem toOption_convert (field operator : String) (kind : OperandKind) (v : Json.Value) :
    (convert field operator kind v).toOption =
      match kind with
      | .scalar => if v.isScalar then some (Param.ofJson v) else none
      | .number => Param.numeric? v
      | .list => if v.isArray then some (Param.ofJson v) else none := by
  cases kind with
  | scalar => cases v <;> rfl
  | number =>
    have hconvert : convert field operator .number v =
        (Param.numeric? v).elim (.error (.notNumeric field operator v)) .ok := by
      rw [convert]
      cases Param.numeric? v <;> rfl
    rw [hconvert]
    cases Param.numeric? v <;> rfl
  | list => cases v <;> rfl

/-- Checking accepts exactly the well-formed comparisons. -/
theorem isSome_check? (c : Comparison) : c.check?.isSome = c.isWellFormed := by
  cases hv : c.operand? with
  | none =>
    rw [check?_of_none hv, isWellFormed, hv]
    cases c.operator <;> rfl
  | some v =>
    rw [check?_of_some hv, isWellFormed, hv]
    cases c.operator with
    | unsupported name => rfl
    | gt | gte | lt | lte => simp [relation?, toOption_convert]
    | _ => cases v <;> simp [relation?, toOption_convert, Json.Value.isScalar, Json.Value.isArray]

/-- A checked comparison asks for what its operator and its operand say. -/
theorem accepts_of_check? {c : Comparison} {p : Predicate Param} (h : c.check? = some p) :
    c.Accepts p := by
  cases hv : c.operand? with
  | none =>
    rw [check?_of_none hv] at h
    split at h
    · rename_i hop
      cases h
      exact ⟨rfl, hv, hop⟩
    · rename_i hop
      cases h
      exact ⟨rfl, hv, hop⟩
    · cases h
  | some v =>
    rw [check?_of_some hv, Option.bind_eq_some_iff] at h
    rcases h with ⟨⟨relation, kind⟩, hrelation, h⟩
    rw [Option.map_eq_some_iff] at h
    rcases h with ⟨value, hvalue, rfl⟩
    rw [toOption_convert] at hvalue
    refine ⟨rfl, v, hv, ?_⟩
    cases hop : c.operator <;> rw [hop, relation?] at hrelation <;> cases hrelation <;>
      refine ⟨?_, rfl, rfl⟩ <;> simp_all [Operator.value?]

end Comparison

end GraphFilter
