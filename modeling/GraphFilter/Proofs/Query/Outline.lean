import GraphFilter.Proofs.Filter.Strict
import GraphFilter.Proofs.Where.Outline

/-!
# Values stay out of the query text

Two requests that differ in nothing but values are compiled to the same query text with
parameters of the same names.  An operand decides whether there is a test for null and
whether its comparison is left out, and a paging number whether its clause is written.
Beyond that neither is seen in the text.

Main results:

- Theorem {lit}`Request.alike_compiled`: requests of one outline compile alike.
- Theorem {lit}`Request.query_outline`: their queries differ in the values of parameters
  only.
-/

namespace GraphFilter

open Compile (Agree)

/-! ## Clauses -/

namespace Options

/-- Whether a paging clause is written. -/
def writesPaging (o : Options) (n : Option UInt64) : Bool :=
  n.any fun n => n ≠ 0 || o.zeroPaging

theorem alike_compiledCondition (o : Options) {w v : Option Where}
    (h : w.map Where.outline = v.map Where.outline) :
    (o.compiledCondition w).Alike (o.compiledCondition v) := by
  have hkeyword {c d : Clause} (hclause : c.Alike d) : (withKeyword c).Alike (withKeyword d) := by
    unfold withKeyword Clause.isEmpty
    rw [hclause.text]
    split
    · exact hclause
    · exact ⟨rfl, hclause.names⟩
  cases w with
  | none =>
    rw [Option.map_none, eq_comm, Option.map_eq_none_iff] at h
    rw [h]
    exact Clause.Alike.refl _
  | some w =>
    rw [Option.map_some, eq_comm, Option.map_eq_some_iff] at h
    rcases h with ⟨v, rfl, houtline⟩
    exact hkeyword (Where.alike_clause o.nodeAlias houtline.symm .empty)

/-- A paging clause shows the name of its parameter, not the number. -/
theorem alike_pagingClause (o : Options) (keyword name : String) {m n : Option UInt64}
    (h : o.writesPaging m = o.writesPaging n) :
    (o.pagingClause keyword name m).Alike (o.pagingClause keyword name n) := by
  -- both clauses are compared with the one that has no number
  have hwritten (n : Option UInt64) : (o.pagingClause keyword name n).Alike
      (if o.writesPaging n then ⟨keyword ++ " $" ++ name, .ofList [(name, .null)]⟩
        else .empty) := by
    cases n with
    | none => exact Clause.Alike.refl _
    | some n =>
      have hskips : (n = 0 && !o.zeroPaging) = !o.writesPaging (some n) := by
        simp [writesPaging]
      rw [pagingClause, hskips]
      cases o.writesPaging (some n) with
      | false => exact Clause.Alike.refl _
      | true =>
        have hnames : (Bindings.ofList [(name, .ofInteger n.toNat)]).names =
            (Bindings.ofList [(name, .null)]).names :=
          Bindings.names_ofList_congr (by simp)
        exact ⟨rfl, hnames⟩
  have hm := hwritten m
  have hn := hwritten n
  rw [h] at hm
  exact ⟨hm.text.trans hn.text.symm, hm.names.trans hn.names.symm⟩

end Options

/-! ## Requests -/

/-- Filters that differ in nothing but values: the values of operands, and paging numbers
for which a clause is written either way. -/
structure Filter.SameOutline (o : Options) (f g : Filter) : Prop where
  condition : f.condition.map Where.outline = g.condition.map Where.outline
  order : f.order = g.order
  skip : o.writesPaging f.skip = o.writesPaging g.skip
  limit : o.writesPaging f.limit = o.writesPaging g.limit
  fields : f.fields = g.fields

/-- Queries that differ in the values of their parameters only. -/
structure Query.Alike (q r : Query) : Prop where
  text : q.text = r.text
  names : q.params.names = r.params.names

namespace Request

/-- Requests that differ in nothing but values. -/
inductive SameOutline (o : Options) : Request → Request → Prop where
  | find {f g : Filter} (h : f.SameOutline o g) : SameOutline o (.find f) (.find g)
  | count {w v : Option Where} (h : w.map Where.outline = v.map Where.outline) :
      SameOutline o (.count w) (.count v)

/-- Requests of one outline compile alike. -/
theorem alike_compiled {o : Options} (model : String) {r s : Request} (h : r.SameOutline o s) :
    (r.compiled o model).Alike (s.compiled o model) := by
  cases h with
  | @find f g h =>
    have hcondition : (f.compiled o).condition.Alike (g.compiled o).condition :=
      o.alike_compiledCondition h.condition
    have horder : (f.compiled o).order = (g.compiled o).order := congrArg o.compiledOrder h.order
    have hskip : (f.compiled o).skip.Alike (g.compiled o).skip :=
      o.alike_pagingClause "SKIP" "skip" h.skip
    have hlimit : (f.compiled o).limit.Alike (g.compiled o).limit :=
      o.alike_pagingClause "LIMIT" "limit" h.limit
    have hprojection : (f.compiled o).projection = (g.compiled o).projection :=
      congrArg o.projection h.fields
    constructor
    · have htail : (f.compiled o).tail = (g.compiled o).tail := by
        rw [CompiledFilter.tail, CompiledFilter.tail, horder, hskip.text, hlimit.text]
      rw [compiled, compiled, hcondition.text, hprojection, htail]
    · have hordered : ((f.compiled o).condition.params.union (f.compiled o).order.params).names =
          ((g.compiled o).condition.params.union (g.compiled o).order.params).names := by
        rw [horder]
        exact Bindings.names_union_congr hcondition.names rfl
      have hskipped := Bindings.names_union_congr hordered hskip.names
      exact Bindings.names_union_congr hskipped hlimit.names
  | @count w v h =>
    have hcondition := o.alike_compiledCondition h
    constructor
    · simp only [compiled, hcondition.text]
    · exact hcondition.names

/-- Two requests that differ in nothing but values have queries of the same text whose
parameters have the same names. -/
theorem query_outline {o : Options} {r s : Request}
    (h : r.SameOutline { o with strict := false } s) (model : String) :
    ∃ q q' warnings warnings',
      (r.query { o with strict := false } model).runFresh = (.ok q, warnings) ∧
        (s.query { o with strict := false } model).runFresh = (.ok q', warnings') ∧
        q.text = q'.text ∧ q.params.names = q'.params.names := by
  rcases (agree_query o model r).runFresh with ⟨q, hq, -⟩
  rcases (agree_query o model s).runFresh with ⟨q', hq', -⟩
  have halike := alike_compiled model h
  rw [← eq_compiled hq, ← eq_compiled hq'] at halike
  exact ⟨q, q', _, _, hq, hq', halike.text, halike.names⟩

/-- An operand that reads like a condition changes no more of the query than any other text,
and an operand that is no number is left out either way. -/
theorem query_outline_condition :
    ∃ q q' warnings warnings',
      (Request.query .default "person" (.find
          ⟨some [.leaf ⟨"name", .eq, some (.string "Ann")⟩, .group .or
              [[.leaf ⟨"age", .gt, some (.string "x")⟩],
                [.leaf ⟨"age", .lt, some (.string "7")⟩]]],
            ["name DESC"], some 5, some 0, ["id"]⟩)).runFresh = (.ok q, warnings) ∧
        (Request.query .default "person" (.find
          ⟨some [.leaf ⟨"name", .eq, some (.string "x' OR n.id = '1")⟩, .group .or
              [[.leaf ⟨"age", .gt, some (.bool true)⟩],
                [.leaf ⟨"age", .lt, some (.string "1e9")⟩]]],
            ["name DESC"], some 10, none, ["id"]⟩)).runFresh = (.ok q', warnings') ∧
        q.text = q'.text ∧ q.params.names = q'.params.names := by
  have hname : Comparison.outline ⟨"name", .eq, some (.string "Ann")⟩ =
      Comparison.outline ⟨"name", .eq, some (.string "x' OR n.id = '1")⟩ := by decide
  have hdropped : Comparison.outline ⟨"age", .gt, some (.string "x")⟩ =
      Comparison.outline ⟨"age", .gt, some (.bool true)⟩ := by decide
  have hkept : Comparison.outline ⟨"age", .lt, some (.string "7")⟩ =
      Comparison.outline ⟨"age", .lt, some (.string "1e9")⟩ := by decide
  refine query_outline (o := .default) (.find ?_) "person"
  refine ⟨?_, rfl, by decide, by decide, rfl⟩
  simp [Where.outline, hname, hdropped, hkept]

end Request

end GraphFilter
