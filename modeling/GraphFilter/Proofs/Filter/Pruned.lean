import GraphFilter.Proofs.Cypher.SameText
import GraphFilter.Proofs.Filter.Strict
import GraphFilter.Proofs.Where.Meaning

/-!
# Filters without malformed parts

Leaving a malformed part out of a filter while it is compiled is the same as compiling a
filter that never had it.  Names are handed out to well-formed comparisons only, and a
child in which nothing is left does not show between its siblings.

Main results:

- Theorem {lit}`Where.clause_prune`: a where object is written like what is left of it.
- Theorem {lit}`Filter.compile_prune`: a filter compiles leniently to what the rest of it
  compiles to strictly.
-/

namespace GraphFilter

open GraphFilter.Tree (SingleGroups)

/-! ## Where objects -/

namespace Where

/-- What is left of a where object without its malformed comparisons, and then without
children that have no conditions and groups that have no children. -/
def prune (w : Where) : Where :=
  Tree.tidy w.wellFormed

/-- Malformed comparisons are not given names. -/
theorem bind_wellFormed (w : Where) : w.wellFormed.bind = w.bind := by
  have hbind : (fun c => (Option.guard Comparison.isWellFormed c).elim (pure none)
      Comparison.bindChecked) = Comparison.bindChecked := by
    funext c
    have hcheck := c.isSome_check?
    cases hwell : c.isWellFormed with
    | true => simp [Option.guard, hwell]
    | false =>
      rw [hwell, Option.isSome_eq_false_iff, Option.isNone_iff_eq_none] at hcheck
      simp [Option.guard, hwell, Comparison.bindChecked, hcheck]
  rw [bind, wellFormed, Tree.filterMapM_filterMap, hbind]
  rfl

/-- Apart from empty parts, what is left of a where object is given the same names. -/
theorem tidy_bind_prune (w : Where) : Tree.tidy <$> w.prune.bind = Tree.tidy <$> w.bind := by
  rw [← w.bind_wellFormed]
  exact Tree.tidy_filterMapM_tidy _ w.wellFormed

/-- Empty parts of a tree add nothing to its clause. -/
theorem clause_tidy (node : String) {t : Tree (Predicate Bound)} (h : SingleGroups t) :
    Tree.clause node (Tree.tidy t) = Tree.clause node t := by
  rw [Tree.clause, Tree.clause, Tree.render_tidy _ h, Tree.leaves_tidy]

/-- A where object in which no group is repeated is written like what is left of it. -/
theorem clause_prune (node : String) {w : Where} (h : SingleGroups w) (names : NameSupply) :
    Tree.clause node (w.prune.bind.run names).1 = Tree.clause node (w.bind.run names).1 := by
  have hwell : SingleGroups w.wellFormed := h.filterMap _
  have hprune : SingleGroups w.prune := hwell.tidy
  have htidy : Tree.tidy (w.prune.bind.run names).1 = Tree.tidy (w.bind.run names).1 :=
    congrArg (fun pass => (StateT.run pass names).1) w.tidy_bind_prune
  rw [← clause_tidy node (single_bind hprune names), htidy, clause_tidy node (single_bind h names)]

/-- Nothing that is left of a where object is malformed. -/
theorem warnings_prune (w : Where) : w.prune.warnings = [] := by
  rw [warnings, prune, Tree.leaves_tidy, wellFormed, Tree.leaves_filterMap,
    List.filterMap_eq_filter, List.filterMap_eq_nil_iff]
  intro c hc
  have hwell : c.isWellFormed = true := (List.mem_filter.mp hc).2
  rw [← Option.isNone_iff_eq_none, ← Option.not_isSome, c.isSome_warning?, hwell]
  rfl

end Where

/-! ## Filters -/

namespace Filter

/-- What is left of a filter without its malformed parts. -/
def prune (f : Filter) : Filter :=
  { f with condition := f.condition.map Where.prune, order := f.order.filter OrderKey.isWellFormed }

/-- Nothing that is left of a filter is malformed. -/
theorem warnings_prune (f : Filter) : f.prune.warnings = [] := by
  have horder : (f.order.filter OrderKey.isWellFormed).filterMap OrderKey.warning? = [] := by
    rw [List.filterMap_eq_nil_iff]
    intro entry hentry
    exact if_pos (List.mem_filter.mp hentry).2
  rw [warnings, prune, horder, List.append_nil]
  cases f.condition with
  | none => rfl
  | some w => exact w.warnings_prune

/-- A filter compiles to the same parts as what is left of it. -/
theorem compiled_prune (o : Options) {f : Filter} (hf : ∀ w ∈ f.condition, SingleGroups w) :
    f.prune.compiled o = f.compiled o := by
  have hcondition : o.compiledCondition f.prune.condition = o.compiledCondition f.condition := by
    rw [prune]
    cases hw : f.condition with
    | none => rfl
    | some w =>
      rw [Option.map_some, Options.compiledCondition, Options.compiledCondition,
        w.clause_prune o.nodeAlias (hf w hw)]
  have horder : o.compiledOrder f.prune.order = o.compiledOrder f.order := by
    have hparse : (fun entry =>
        if OrderKey.isWellFormed entry then OrderKey.parse? entry else none) = OrderKey.parse? := by
      funext entry
      cases hkey : OrderKey.parse? entry <;> simp [OrderKey.isWellFormed, hkey]
    rw [Options.compiledOrder, Options.compiledOrder, prune, List.filterMap_filter, hparse]
  rw [compiled, compiled, hcondition, horder]
  rfl

/-- Leaving out the malformed parts of a filter gives the same result as compiling, without
any tolerance, the filter that never had them: the same clauses with the same placeholders
and the same parameters. -/
theorem compile_prune {f : Filter} (hf : ∀ w ∈ f.condition, w.Given) (o : Options) :
    ∃ c warnings, (f.compile { o with strict := false }).runFresh = (.ok c, warnings) ∧
      (f.prune.compile { o with strict := true }).runFresh = (.ok c, []) := by
  rcases (f.agree_compile o).runFresh with ⟨c, hlenient, -⟩
  rcases (f.prune.agree_compile o).runFresh with ⟨c', -, hstrict, -⟩
  have hpruned := hstrict f.warnings_prune
  have heq : c' = c := by
    rw [eq_compiled hlenient, eq_compiled hpruned, compiled_prune _ fun w hw => (hf w hw).single]
    rfl
  rw [heq] at hpruned
  exact ⟨c, _, hlenient, hpruned⟩

/-- A malformed comparison and a child in which nothing is left stand in front of the
children that are written. -/
theorem compile_prune_dropped :
    ∃ c warnings, (Filter.compile .default
        ⟨some (Where.empty.or [Where.empty.compare "b" .gt (.string "x"),
            Where.empty.and [Where.empty], (Where.empty.compare "b" .inq .null).equal "b" (.string "x"),
            Where.empty.isNull "c"]), ["c sideways", "c DESC"], some 5, none, []⟩).runFresh =
          (.ok c, warnings) ∧
      (Filter.compile ⟨"n", true, false⟩
        ⟨some [.group .or [[.leaf ⟨"b", .eq, some (.string "x")⟩], [.leaf ⟨"c", .eq, none⟩]]],
          ["c DESC"], some 5, none, []⟩).runFresh = (.ok c, []) ∧
      c.condition.text = "WHERE (n.b = $b1 XOR n.c IS NULL)" := by
  have hempty : Where.empty.Given := .obtained .empty
  have hchildren : ∀ child ∈ [Where.empty.compare "b" .gt (.string "x"),
      Where.empty.and [Where.empty], (Where.empty.compare "b" .inq .null).equal "b" (.string "x"),
      Where.empty.isNull "c"], child.Given := by
    rw [List.forall_mem_cons, List.forall_mem_cons, List.forall_mem_cons, List.forall_mem_singleton]
    refine ⟨hempty.compare .., hempty.and ?_, (hempty.compare ..).compare .., hempty.isNull _⟩
    simpa using hempty
  have hgiven : ∀ w ∈ some (Where.empty.or [Where.empty.compare "b" .gt (.string "x"),
      Where.empty.and [Where.empty], (Where.empty.compare "b" .inq .null).equal "b" (.string "x"),
      Where.empty.isNull "c"]), w.Given := by
    simpa using hempty.or hchildren
  rcases compile_prune (f := ⟨_, ["c sideways", "c DESC"], some 5, none, []⟩) hgiven .default with
    ⟨c, warnings, hlenient, hpruned⟩
  refine ⟨c, warnings, hlenient, hpruned, ?_⟩
  rw [eq_compiled hlenient]
  rfl

end Filter

end GraphFilter
