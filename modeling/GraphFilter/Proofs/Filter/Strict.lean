import GraphFilter.Proofs.Filter.Compiled
import GraphFilter.Proofs.Where.Malformed

/-!
# Strict and lenient queries

Whether malformed parts are left out or refused is an option of a query.  Both ways the
where object is worked through before the order entries, and so a strict query fails with
what a lenient one warns about first.

Main results:

- Theorem {lit}`Filter.agree_compile`: the two modes agree on filters.
- Theorem {lit}`Request.query_strict`: a lenient query always succeeds, with one warning
  for each malformed part, and a strict query fails with the first of them.
-/

namespace GraphFilter

open Compile (Agree)

/-! ## Order entries -/

/-- A warning about an order entry repeats the entry, also in its error. -/
def Warning.ReportsOrder (warning : Warning) (entry : String) : Prop :=
  warning = .droppedOrder entry (.invalidOrder entry)

namespace OrderKey

/-- Whether an entry describes a key. -/
def isWellFormed (entry : String) : Bool :=
  (parse? entry).isSome

/-- The warning about an entry, if it is malformed. -/
def warning? (entry : String) : Option Warning :=
  if isWellFormed entry then none else some (.droppedOrder entry (.invalidOrder entry))

theorem isSome_warning? (entry : String) : (warning? entry).isSome = !isWellFormed entry := by
  unfold warning?
  cases isWellFormed entry <;> rfl

theorem reports_of_warning? {entry : String} {warning : Warning}
    (h : warning? entry = some warning) : warning.ReportsOrder entry := by
  unfold warning? at h
  split at h
  · cases h
  · exact (Option.some.inj h).symm

/-- There is one warning for each malformed entry, in the same order. -/
theorem forall₂_warning? (entries : List String) :
    List.Forall₂ Warning.ReportsOrder (entries.filterMap warning?)
      (entries.filter fun entry => !isWellFormed entry) := by
  have hall := forall₂_of_map_eq_filterMap (List.map_id (entries.filterMap warning?))
  simp only [isSome_warning?] at hall
  exact hall.imp fun _ _ h => reports_of_warning? h

theorem agree_read? (entry : String) :
    Agree (read? false entry) (read? true entry) (warning? entry).toList := by
  unfold read? warning? isWellFormed
  cases parse? entry with
  | none => exact Compile.agree_reject rfl rfl
  | some key => exact Compile.agree_pure (some key)

/-- The two modes agree on order entries. -/
theorem agree_readAll (entries : List String) :
    Agree (readAll false entries) (readAll true entries) (entries.filterMap warning?) := by
  induction entries with
  | nil => exact Compile.agree_pure []
  | cons entry rest ih =>
    have hboth := (agree_read? entry).bind fun key => ih.map fun keys => key.toList ++ keys
    rw [List.filterMap_eq_flatMap_toList] at hboth ⊢
    exact hboth

end OrderKey

/-! ## Filters -/

/-- The where clause is compiled in the mode of the options. -/
theorem Options.agree_whereClause (o : Options) (w : Option Where) :
    Agree ({ o with strict := false }.whereClause w) ({ o with strict := true }.whereClause w)
      (w.elim [] Where.warnings) := by
  cases w with
  | none => exact Compile.agree_pure Clause.empty
  | some w => exact (w.agree_compile o.nodeAlias).map withKeyword

/-- So is the order clause. -/
theorem Options.agree_orderClause (o : Options) (entries : List String) :
    Agree ({ o with strict := false }.orderClause entries)
      ({ o with strict := true }.orderClause entries) (entries.filterMap OrderKey.warning?) :=
  (OrderKey.agree_readAll entries).map (OrderKey.clause o.nodeAlias)

/-- The warnings about the malformed parts of a filter: its comparisons come first. -/
def Filter.warnings (f : Filter) : List Warning :=
  f.condition.elim [] Where.warnings ++ f.order.filterMap OrderKey.warning?

/-- The two modes agree on filters. -/
theorem Filter.agree_compile (o : Options) (f : Filter) :
    Agree (f.compile { o with strict := false }) (f.compile { o with strict := true })
      f.warnings :=
  (o.agree_whereClause f.condition).bind fun _ => (o.agree_orderClause f.order).map _

/-! ## Queries -/

namespace Request

/-- The comparisons that a request makes, in input order. -/
def comparisons : Request → List Comparison
  | find f => f.condition.elim [] Tree.leaves
  | count w => w.elim [] Tree.leaves

/-- The order entries of a request. -/
def orderEntries : Request → List String
  | find f => f.order
  | count _ => []

/-- The warnings about the malformed parts of a request. -/
def warnings (r : Request) : List Warning :=
  r.comparisons.filterMap Comparison.warning? ++ r.orderEntries.filterMap OrderKey.warning?

/-- The two modes agree on queries. -/
theorem agree_query (o : Options) (model : String) (r : Request) :
    Agree (r.query { o with strict := false } model) (r.query { o with strict := true } model)
      r.warnings := by
  have hcondition (w : Option Where) : w.elim [] Where.warnings =
      (w.elim [] Tree.leaves).filterMap Comparison.warning? := by
    cases w <;> rfl
  cases r with
  | find f =>
    have hfilter := f.agree_compile o
    rw [Filter.warnings, hcondition] at hfilter
    exact hfilter.map _
  | count w =>
    have hclause := o.agree_whereClause w
    rw [hcondition, ← List.append_nil (List.filterMap _ _)] at hclause
    exact hclause.map _

/-- A lenient query always succeeds.  It gives one warning for each malformed comparison,
in input order, and then one for each malformed order entry.  If there are none, the strict
query succeeds with the same text and the same parameters, and otherwise it fails with the
error in the first of them. -/
theorem query_strict (o : Options) (model : String) (r : Request) :
    ∃ q conditionWarnings orderWarnings,
      (r.query { o with strict := false } model).runFresh =
          (.ok q, conditionWarnings ++ orderWarnings) ∧
        List.Forall₂ Warning.Reports conditionWarnings
          (r.comparisons.filter fun c => !c.isWellFormed) ∧
        List.Forall₂ Warning.ReportsOrder orderWarnings
          (r.orderEntries.filter fun entry => !OrderKey.isWellFormed entry) ∧
        (conditionWarnings ++ orderWarnings = [] →
          (r.query { o with strict := true } model).runFresh = (.ok q, [])) ∧
        ∀ first ∈ (conditionWarnings ++ orderWarnings).head?,
          ∃ error, first.error? = some error ∧
            (r.query { o with strict := true } model).runFresh = (.error error, []) := by
  rcases (agree_query o model r).runFresh with ⟨q, hlenient, hstrict⟩
  exact ⟨q, _, _, hlenient, Comparison.forall₂_warning? _, OrderKey.forall₂_warning? _, hstrict⟩

end Request

end GraphFilter
