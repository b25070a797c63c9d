import GraphFilter.Where.Expression

/-!
# Compiling where objects

The comparisons of a where object are checked and given placeholders in input
order; what is left becomes a boolean expression.  A malformed comparison either
refuses the whole filter or is left out with a warning.  Names that were handed
out before a refusal stay used.
-/

namespace GraphFilter

/-! ## The compiling process -/

/-- What compiling carries along: the supply of names and the warnings so far. -/
structure Progress where
  names : NameSupply
  warnings : List Warning

/-- A compiling step, which may end with a refusal. -/
abbrev Compile := ExceptT FilterError (StateM Progress)

namespace Compile

/-- Refuse a malformed part, or leave it out with a warning unless `strict`. -/
def reject {α : Type} (strict : Bool) (error : FilterError) (warning : Warning) :
    Compile (Option α) :=
  if strict || !error.isMalformed then throw error
  else do
    modify fun p => { p with warnings := p.warnings ++ [warning] }
    return none

/-- Use the supply of names. -/
def withNames {α : Type} (f : NameSupply → α × NameSupply) : Compile α :=
  modifyGet fun p =>
    let (a, names) := f p.names
    (a, { p with names := names })

/-- Run a step from a supply of names; the warnings are those of this step. -/
def runFrom {α : Type} (names : NameSupply) (step : Compile α) :
    Except FilterError α × Progress :=
  step.run.run ⟨names, []⟩

/-- Run a step from the start. -/
def runFresh {α : Type} (step : Compile α) : Except FilterError α × List Warning :=
  let (result, progress) := step.runFrom .empty
  (result, progress.warnings)

end Compile

/-! ## Clauses -/

/-- A piece of a query with the parameters it refers to. -/
structure Clause where
  text : String
  params : Bindings

namespace Clause

/-- The clause that says nothing. -/
def empty : Clause :=
  ⟨"", .empty⟩

/-- A clause without parameters. -/
def ofText (text : String) : Clause :=
  ⟨text, .empty⟩

/-- Whether the clause says nothing. -/
def isEmpty (c : Clause) : Bool :=
  c.text.isEmpty

end Clause

/-! ## Comparisons and where objects -/

/-- Check a comparison and give it a placeholder. -/
def Comparison.bind (c : Comparison) : Compile (Predicate Bound) :=
  match c.check with
  | .ok p => Compile.withNames p.bind
  | .error e => throw e

/-- Check a comparison and give it a placeholder, or leave it out. -/
def Comparison.bind? (strict : Bool) (c : Comparison) : Compile (Option (Predicate Bound)) :=
  match c.check with
  | .ok p => do
    let p ← Compile.withNames p.bind
    return some p
  | .error e => Compile.reject strict e (.droppedCondition c.field c.operator.name e)

/-- The clause of a bound comparison. -/
def Predicate.clause (node : String) (p : Predicate Bound) : Clause :=
  ⟨p.render node, .ofList p.binding?.toList⟩

/-- The clause of a tree of bound comparisons. -/
def Tree.clause (node : String) (t : Tree (Predicate Bound)) : Clause :=
  ⟨Chain.render (Predicate.render node) t.toChain,
    .ofList ((Tree.leaves t).filterMap Predicate.binding?)⟩

/-- Compile one comparison on its own; a malformed one is always refused. -/
def Comparison.compile (node : String) (c : Comparison) : Compile Clause := do
  let p ← c.bind
  return p.clause node

/-- Compile a where object. -/
def Where.compile (node : String) (strict : Bool) (w : Where) : Compile Clause := do
  let t ← Tree.filterMapM (Comparison.bind? strict) w
  return Tree.clause node t

end GraphFilter
