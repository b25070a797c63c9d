import GraphFilter.Query
import GraphFilter.Proofs.Where.Binding

/-!
# What compiling a filter comes to

The result of compiling a filter or a whole query, where it succeeds, as a plain
function of the input: refusals and warnings decide whether there is a result, never
which one.

Main results:

- Theorem {lit}`Filter.run_compile`: a filter that compiles gives this result.
- Theorem {lit}`Request.eq_compiled`: so does a whole query.
-/

namespace GraphFilter

/-! ## Order entries -/

/-- Reading order entries, where it succeeds, keeps the well-formed ones. -/
theorem OrderKey.gives_readAll (strict : Bool) (entries : List String) :
    Compile.Gives (readAll strict entries) (pure (entries.filterMap parse?)) := by
  induction entries with
  | nil => exact Compile.gives_pure []
  | cons entry rest ih =>
    have hread : Compile.Gives (read? strict entry) (pure (parse? entry)) := by
      unfold read?
      cases parse? entry with
      | none => exact Compile.gives_reject strict _ _
      | some key => exact Compile.gives_pure (some key)
    have hboth : Compile.Gives (readAll strict (entry :: rest))
        (pure (parse? entry) >>= fun key => pure (rest.filterMap parse?) >>= fun keys =>
          pure (key.toList ++ keys)) :=
      hread.bind fun key => ih.bind fun keys => Compile.gives_pure _
    rw [pure_bind, pure_bind] at hboth
    rw [List.filterMap_cons]
    cases hkey : parse? entry with
    | none =>
      rw [hkey] at hboth
      exact hboth
    | some key =>
      rw [hkey] at hboth
      exact hboth

/-! ## Clauses -/

namespace Options

/-- A where clause with its keyword; nothing if no condition is left. -/
def withKeyword (clause : Clause) : Clause :=
  if clause.isEmpty then clause else { clause with text := "WHERE " ++ clause.text }

/-- The where clause of a where object whose names are handed out from the start. -/
def compiledCondition (o : Options) : Option Where → Clause
  | none => .empty
  | some w => withKeyword (Tree.clause o.nodeAlias (w.bind.run .empty).1)

/-- The order clause of the well-formed entries. -/
def compiledOrder (o : Options) (entries : List String) : Clause :=
  OrderKey.clause o.nodeAlias (entries.filterMap OrderKey.parse?)

theorem gives_whereClause (o : Options) (w : Option Where) :
    Compile.Gives (o.whereClause w) (match w with
      | none => pure .empty
      | some w => do
        let t ← w.bind
        return withKeyword (Tree.clause o.nodeAlias t)) := by
  cases w with
  | none => exact Compile.gives_pure Clause.empty
  | some w =>
    have hboth := (w.gives_compile o.nodeAlias o.strict).bind fun clause =>
      Compile.gives_pure (withKeyword clause)
    rw [bind_assoc] at hboth
    exact hboth

/-- The where clause of a run from the start. -/
theorem run_whereClause (o : Options) (w : Option Where) {q : Progress} {clause : Clause}
    (h : (o.whereClause w).runFrom .empty = (.ok clause, q)) :
    clause = o.compiledCondition w := by
  have hresult := ((o.gives_whereClause w).of_runFrom h).1
  rw [hresult]
  cases w <;> rfl

theorem gives_orderClause (o : Options) (entries : List String) :
    Compile.Gives (o.orderClause entries) (pure (o.compiledOrder entries)) := by
  have hboth := (OrderKey.gives_readAll o.strict entries).bind fun keys =>
    Compile.gives_pure (OrderKey.clause o.nodeAlias keys)
  rw [pure_bind] at hboth
  exact hboth

end Options

/-! ## Filters and queries -/

/-- The parts of a query that a filter decides. -/
def Filter.compiled (o : Options) (f : Filter) : CompiledFilter where
  condition := o.compiledCondition f.condition
  order := o.compiledOrder f.order
  skip := o.pagingClause "SKIP" "skip" f.skip
  limit := o.pagingClause "LIMIT" "limit" f.limit
  projection := o.projection f.fields

/-- A filter that compiles from the start compiles to its parts. -/
theorem Filter.run_compile (o : Options) (f : Filter) {q : Progress} {c : CompiledFilter}
    (h : (f.compile o).runFrom .empty = (.ok c, q)) : c = f.compiled o := by
  rcases Compile.run_bind_eq_ok h with ⟨condition, p, hcondition, hrest⟩
  rcases Compile.run_bind_eq_ok hrest with ⟨order, p', horder, hrest⟩
  have hfirst : condition = o.compiledCondition f.condition := o.run_whereClause _ hcondition
  have hsecond : order = o.compiledOrder f.order :=
    (congrArg Prod.fst (o.gives_orderClause f.order p p' order horder)).symm
  cases hrest
  rw [hfirst, hsecond]
  rfl

/-- So does a filter that compiles with warnings. -/
theorem Filter.eq_compiled {o : Options} {f : Filter} {c : CompiledFilter}
    {warnings : List Warning} (h : (f.compile o).runFresh = (.ok c, warnings)) :
    c = f.compiled o := by
  rcases Compile.runFrom_of_runFresh h with ⟨p, hrun⟩
  exact f.run_compile o hrun

/-- What a query is asked for: the nodes that a filter matches, or their number. -/
inductive Request where
  | find (filter : Filter)
  | count (condition : Option Where)

namespace Request

/-- The query for a request. -/
def query (o : Options) (model : String) : Request → Compile Query
  | find f => Query.find o model f
  | count w => Query.count o model w

/-- The query that a request compiles to. -/
def compiled (o : Options) (model : String) : Request → Query
  | find f =>
    let c := f.compiled o
    ⟨joinParts [Query.matchClause o model, c.condition.text,
      "RETURN " ++ (if c.projection.isEmpty then o.nodeAlias else c.projection), c.tail], c.params⟩
  | count w =>
    let condition := o.compiledCondition w
    ⟨joinParts [Query.matchClause o model, condition.text,
      "RETURN count(" ++ o.nodeAlias ++ ") AS count"], condition.params⟩

/-- A request that succeeds gives this query. -/
theorem eq_compiled {o : Options} {model : String} {r : Request} {q : Query}
    {warnings : List Warning} (h : (r.query o model).runFresh = (.ok q, warnings)) :
    q = r.compiled o model := by
  rcases Compile.runFrom_of_runFresh h with ⟨p, hstep⟩
  cases r with
  | find f =>
    rcases Compile.run_bind_eq_ok hstep with ⟨c, p', hcompile, hrest⟩
    have hc : c = f.compiled o := f.run_compile o hcompile
    cases hrest
    rw [hc]
    rfl
  | count w =>
    rcases Compile.run_bind_eq_ok hstep with ⟨condition, p', hcondition, hrest⟩
    have hc : condition = o.compiledCondition w := o.run_whereClause w hcondition
    cases hrest
    rw [hc]
    rfl

end Request

end GraphFilter
