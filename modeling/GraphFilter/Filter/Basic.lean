import GraphFilter.Where.Comparison

/-!
# Filters

A filter says which nodes to match, in which order, which part of the matches to
return, and which of their fields.
-/

namespace GraphFilter

/-- A filter as it was given. -/
structure Filter where
  condition : Option Where
  order : List String
  skip : Option UInt64
  limit : Option UInt64
  fields : List String

namespace Filter

/-- The filter that matches everything and returns it whole. -/
def empty : Filter :=
  ⟨none, [], none, none, []⟩

/-- Add an order entry. -/
def orderBy (f : Filter) (entry : String) : Filter :=
  { f with order := f.order ++ [entry] }

/-- Add a field to return. -/
def field (f : Filter) (name : String) : Filter :=
  { f with fields := f.fields ++ [name] }

end Filter

end GraphFilter
