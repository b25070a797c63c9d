import GraphFilter.Filter.Compile
import GraphFilter.Json.Pretty

/-!
# Queries

Complete read queries: one that returns the nodes of a model which a filter
matches, and one that counts them.
-/

namespace GraphFilter

/-- A query and its parameters. -/
structure Query where
  text : String
  params : Bindings

namespace Query

/-- The clause that matches the nodes of a model. -/
def matchClause (o : Options) (model : String) : String :=
  "MATCH (" ++ o.nodeAlias ++ ":" ++ Cypher.label model ++ ")"

/-- Return the nodes that a filter matches, or some of their properties. -/
def find (o : Options) (model : String) (f : Filter) : Compile Query := do
  let compiled ← f.compile o
  let returned := if compiled.projection.isEmpty then o.nodeAlias else compiled.projection
  return ⟨joinParts [matchClause o model, compiled.condition.text, "RETURN " ++ returned,
    compiled.tail], compiled.params⟩

/-- Count the nodes that a where object matches. -/
def count (o : Options) (model : String) (w : Option Where) : Compile Query := do
  let condition ← o.whereClause w
  return ⟨joinParts [matchClause o model, condition.text,
    "RETURN count(" ++ o.nodeAlias ++ ") AS count"], condition.params⟩

/-- A query as a JSON object. -/
def toJson (q : Query) : Json.Value :=
  .object [("query", .string q.text), ("params", q.params.toJson)]

/-- A query as it is printed. -/
def print (q : Query) : String :=
  q.toJson.pretty

end Query

end GraphFilter
