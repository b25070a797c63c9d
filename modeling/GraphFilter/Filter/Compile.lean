import GraphFilter.Filter.Basic
import GraphFilter.Filter.Order

/-!
# Compiling filters

The parts of a query that a filter decides: the where, order and paging clauses
and the list of returned properties.
-/

namespace GraphFilter

/-! ## Options -/

/-- How filters are compiled. -/
structure Options where
  /-- The name of the matched node in the query. -/
  nodeAlias : String
  /-- Refuse malformed parts instead of leaving them out. -/
  strict : Bool
  /-- Write a paging clause for zero as well. -/
  zeroPaging : Bool
deriving DecidableEq

/-- The options where nothing is set. -/
def Options.default : Options :=
  ⟨"n", false, false⟩

/-! ## Clauses -/

/-- The where clause with its keyword; nothing if no condition is left. -/
def Options.whereClause (o : Options) : Option Where → Compile Clause
  | none => return .empty
  | some w => do
    let clause ← w.compile o.nodeAlias o.strict
    return if clause.isEmpty then clause else { clause with text := "WHERE " ++ clause.text }

/-- The order clause. -/
def Options.orderClause (o : Options) (entries : List String) : Compile Clause := do
  let keys ← OrderKey.readAll o.strict entries
  return OrderKey.clause o.nodeAlias keys

/-- A paging clause.  Zero counts as not given unless the options say otherwise. -/
def Options.pagingClause (o : Options) (keyword name : String) : Option UInt64 → Clause
  | none => .empty
  | some n =>
    if n = 0 && !o.zeroPaging then .empty
    else ⟨keyword ++ " $" ++ name, .ofList [(name, .ofInteger n.toNat)]⟩

/-- The returned properties, separated by commas. -/
def Options.projection (o : Options) (fields : List String) : String :=
  ", ".intercalate (fields.map (property o.nodeAlias))

/-! ## Whole filters -/

/-- The parts of a query that a filter decides. -/
structure CompiledFilter where
  condition : Clause
  order : Clause
  skip : Clause
  limit : Clause
  projection : String

/-- Texts that are not empty, separated by single spaces. -/
def joinParts (parts : List String) : String :=
  " ".intercalate (parts.filter fun part => !part.isEmpty)

namespace CompiledFilter

/-- What follows the returned properties. -/
def tail (f : CompiledFilter) : String :=
  joinParts [f.order.text, f.skip.text, f.limit.text]

/-- The parameters of all clauses. -/
def params (f : CompiledFilter) : Bindings :=
  ((f.condition.params.union f.order.params).union f.skip.params).union f.limit.params

end CompiledFilter

/-- Compile a filter.  Where objects number their placeholders from the start. -/
def Filter.compile (o : Options) (f : Filter) : Compile CompiledFilter := do
  let condition ← o.whereClause f.condition
  let order ← o.orderClause f.order
  return {
    condition
    order
    skip := o.pagingClause "SKIP" "skip" f.skip
    limit := o.pagingClause "LIMIT" "limit" f.limit
    projection := o.projection f.fields }

end GraphFilter
