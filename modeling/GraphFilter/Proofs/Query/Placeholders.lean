import GraphFilter.Proofs.Param.Distinct
import GraphFilter.Proofs.Query.Parts

/-!
# Placeholders and parameters of a query

The parameters of a query come from up to four clauses, joined so that later values
replace earlier ones of the same name.  Nothing is ever replaced: the names for
operands are all different, and they end in a digit, which the two names for paging
do not.

Main results:

- Theorem {lit}`Filter.params_compiled`: joining the parameters of the clauses loses
  none of them.
- Theorem {lit}`Request.placeholders_query`: each placeholder of a query is written
  once and has a value, and each value has its placeholder.
-/

namespace GraphFilter

open Cypher (Token)

/-! ## The where clause -/

namespace Where

/-- The placeholders of a tree of named comparisons are all different. -/
theorem nodup_bind (w : Where) (names : NameSupply) :
    ((Tree.textLeaves (w.bind.run names).1).filterMap Predicate.placeholder?).Nodup := by
  have hleaves := (w.handsOut_bind names).nodup
  have hperm := (Tree.textLeaves_perm (w.bind.run names).1).filterMap Predicate.placeholder?
  exact hperm.nodup_iff.mpr hleaves

/-- The parameters of a tree of named comparisons are the bindings of its leaves. -/
theorem params_bind (node : String) (w : Where) (names : NameSupply) :
    (Tree.clause node (w.bind.run names).1).params.entries.Perm
      ((Tree.textLeaves (w.bind.run names).1).filterMap Predicate.binding?) := by
  have hperm := (Tree.textLeaves_perm (w.bind.run names).1).filterMap Predicate.binding?
  exact (Bindings.ofList_perm (w.nodup_names_bind names)).trans hperm.symm

theorem nodup_boundLeaves (w : Option Where) :
    ((boundLeaves w).filterMap Predicate.placeholder?).Nodup := by
  cases w with
  | none => exact List.nodup_nil
  | some w => exact w.nodup_bind .empty

theorem isPlaceholder_boundLeaves {w : Option Where} {name : String}
    (h : name ∈ (boundLeaves w).filterMap Predicate.placeholder?) : IsPlaceholder name := by
  rcases List.mem_filterMap.mp h with ⟨p, hp, hname⟩
  cases w with
  | none => cases hp
  | some w => exact isPlaceholder_of_mem_bind hp name hname

end Where

/-! ## The parameters of all clauses -/

namespace Options

/-- The names that a where clause binds are the placeholders of its comparisons. -/
theorem names_compiledCondition (o : Options) (w : Option Where) :
    (o.compiledCondition w).params.names.Perm
      ((Where.boundLeaves w).filterMap Predicate.placeholder?) := by
  cases w with
  | none => exact List.Perm.refl _
  | some w =>
    have hparams : (o.compiledCondition (some w)).params =
        (Tree.clause o.nodeAlias (w.bind.run .empty).1).params := by
      simp only [compiledCondition, withKeyword]
      split <;> rfl
    rw [Bindings.names, hparams, ← Predicate.map_fst_filterMap_binding?]
    exact (w.params_bind o.nodeAlias .empty).map Prod.fst

theorem names_compiledOrder (o : Options) (entries : List String) :
    (o.compiledOrder entries).params.entries = [] := by
  unfold compiledOrder OrderKey.clause
  split <;> rfl

/-- A paging clause binds the placeholder that it writes, if it is there. -/
theorem names_pagingClause (o : Options) (keyword name : String) (k : Keyword)
    (n : Option UInt64) :
    (o.pagingClause keyword name n).params.names =
      (o.pagingParts k name n).filterMap Part.placeholder? := by
  cases n with
  | none => rfl
  | some n =>
    simp only [pagingClause, pagingParts]
    split <;> rfl

theorem names_pagingClause_sublist (o : Options) (keyword name : String) (n : Option UInt64) :
    (o.pagingClause keyword name n).params.names.Sublist [name] := by
  cases n with
  | none => exact List.nil_sublist _
  | some n =>
    simp only [pagingClause]
    split
    · exact List.nil_sublist _
    · exact List.Sublist.refl _

/-- The names for operands are none of the names for paging. -/
theorem ne_paging_of_mem_names {o : Options} {w : Option Where} {name : String}
    (h : name ∈ (o.compiledCondition w).params.names) : name ≠ "skip" ∧ name ≠ "limit" := by
  have hname : IsPlaceholder name :=
    Where.isPlaceholder_boundLeaves ((o.names_compiledCondition w).mem_iff.mp h)
  constructor
  · exact hname.ne_of_getLast (c := 'p') (by decide) (by decide)
  · exact hname.ne_of_getLast (c := 't') (by decide) (by decide)

end Options

namespace Filter

/-- The names that the clauses of a filter bind are all different. -/
theorem nodup_names_compiled (o : Options) (f : Filter) :
    ((f.compiled o).condition.params.names ++
      ((f.compiled o).skip.params.names ++ (f.compiled o).limit.params.names)).Nodup := by
  have hpaging : ((f.compiled o).skip.params.names ++ (f.compiled o).limit.params.names).Sublist
      ["skip", "limit"] :=
    (o.names_pagingClause_sublist "SKIP" "skip" f.skip).append
      (o.names_pagingClause_sublist "LIMIT" "limit" f.limit)
  have hcondition : (f.compiled o).condition.params.names.Nodup :=
    (o.names_compiledCondition f.condition).nodup_iff.mpr (Where.nodup_boundLeaves f.condition)
  refine hcondition.append (hpaging.nodup (by decide)) ?_
  intro name hname hmem
  have hne := Options.ne_paging_of_mem_names hname
  rcases List.mem_cons.mp (hpaging.subset hmem) with hskip | hlimit
  · exact hne.1 hskip
  · exact hne.2 (List.mem_singleton.mp hlimit)

/-- The parameters of a filter are those of its clauses, none of them replaced. -/
theorem params_compiled (o : Options) (f : Filter) :
    (f.compiled o).params.entries.Perm
      ((f.compiled o).condition.params.entries ++ (f.compiled o).order.params.entries ++
        (f.compiled o).skip.params.entries ++ (f.compiled o).limit.params.entries) := by
  have hnodup := nodup_names_compiled o f
  have horder : (f.compiled o).order.params.entries = [] := o.names_compiledOrder f.order
  have hfirst : ((f.compiled o).condition.params.union (f.compiled o).order.params).entries =
      (f.compiled o).condition.params.entries := by
    rw [Bindings.union, horder]
    rfl
  have hskip : (((f.compiled o).condition.params.union (f.compiled o).order.params).union
      (f.compiled o).skip.params).entries.Perm
      ((f.compiled o).condition.params.entries ++ (f.compiled o).skip.params.entries) := by
    rw [← hfirst]
    refine Bindings.union_perm ?_
    rw [Bindings.names, hfirst]
    rw [← List.append_assoc] at hnodup
    exact (List.nodup_append.mp hnodup).1
  have hlimit : (f.compiled o).params.entries.Perm
      ((((f.compiled o).condition.params.union (f.compiled o).order.params).union
        (f.compiled o).skip.params).entries ++ (f.compiled o).limit.params.entries) := by
    refine Bindings.union_perm ?_
    have hnames := (hskip.map Prod.fst).append_right (f.compiled o).limit.params.names
    rw [List.map_append, List.append_assoc] at hnames
    exact hnames.nodup_iff.mpr hnodup
  rw [horder, List.append_nil]
  exact hlimit.trans (hskip.append_right _)

end Filter

/-! ## Whole queries -/

namespace Request

/-- The placeholders among the parts of a request. -/
theorem filterMap_placeholder?_parts (o : Options) (model : String) (r : Request) :
    (r.parts o model).filterMap Part.placeholder? =
      (Where.boundLeaves r.condition).filterMap Predicate.placeholder? ++
        (r.pagingParts o).filterMap Part.placeholder? := by
  have hf : Part.Ignores Part.placeholder? := ⟨fun _ => rfl, fun _ => rfl, rfl⟩
  have hpredicate (p : Predicate Bound) :
      p.parts.filterMap Part.placeholder? = p.placeholder?.toList := by
    rw [p.filterMap_parts hf]
    cases p.placeholder? <;> rfl
  have hproperty (field : String) : (propertyParts field).filterMap Part.placeholder? = [] := rfl
  have hkey (k : OrderKey) : k.parts.filterMap Part.placeholder? = [] := by
    rcases k with ⟨field, direction⟩
    cases direction <;> rfl
  have hlabel (label : String) : [Part.name label].filterMap Part.placeholder? = [] := rfl
  have hnone {α : Type} (l : List α) : l.flatMap (fun _ => ([] : List String)) = [] :=
    List.flatMap_eq_nil_iff.mpr fun _ _ => rfl
  rw [filterMap_parts hf]
  simp only [hpredicate, hproperty, hkey, hlabel, hnone,
    List.nil_append, List.append_nil]
  rw [← List.filterMap_eq_flatMap_toList]

/-- The names that a query binds are its placeholders. -/
theorem names_compiled (o : Options) (model : String) (r : Request) :
    (r.compiled o model).params.names.Perm ((r.parts o model).filterMap Part.placeholder?) ∧
      (r.compiled o model).params.names.Nodup := by
  rw [filterMap_placeholder?_parts]
  cases r with
  | find f =>
    have hparams := (f.params_compiled o).map Prod.fst
    have horder : (f.compiled o).order.params.entries = [] := o.names_compiledOrder f.order
    have hpaging : (pagingParts o (find f)).filterMap Part.placeholder? =
        (f.compiled o).skip.params.names ++ (f.compiled o).limit.params.names := by
      rw [pagingParts, List.filterMap_append, ← o.names_pagingClause "SKIP",
        ← o.names_pagingClause "LIMIT"]
      rfl
    rw [horder, List.append_nil, List.map_append, List.map_append, List.append_assoc] at hparams
    refine ⟨?_, hparams.nodup_iff.mpr (f.nodup_names_compiled o)⟩
    rw [hpaging]
    exact hparams.trans ((o.names_compiledCondition f.condition).append_right _)
  | count w =>
    have hnames := o.names_compiledCondition w
    have hpaging : (pagingParts o (count w)).filterMap Part.placeholder? = [] := rfl
    rw [hpaging, List.append_nil]
    exact ⟨hnames, hnames.nodup_iff.mpr (Where.nodup_boundLeaves w)⟩

/-- The placeholders read from the text of a query are all different and are the names
of its parameters.  No comparison is given a name for paging, and so the parameters of
the clauses are all kept. -/
theorem placeholders_query {o : Options} (halias : Cypher.isPlainName o.nodeAlias = true) :
    (∀ model r q warnings, (query o model r).runFresh = (.ok q, warnings) →
      ∃ tokens, Cypher.lex q.text = some tokens ∧ (tokens.filterMap Token.param?).Nodup ∧
        (tokens.filterMap Token.param?).Perm q.params.names) ∧
    (∀ f c warnings, (Filter.compile o f).runFresh = (.ok c, warnings) →
      (∀ name ∈ c.condition.params.names, name ≠ "skip" ∧ name ≠ "limit") ∧
        c.params.entries.Perm (c.condition.params.entries ++ c.order.params.entries ++
          c.skip.params.entries ++ c.limit.params.entries)) := by
  constructor
  · intro model r q warnings hrun
    rcases names_compiled o model r with ⟨hperm, hnodup⟩
    have htokens : ((r.parts o model).map (Part.token o.nodeAlias)).filterMap Token.param? =
        (r.parts o model).filterMap Part.placeholder? := by
      rw [List.filterMap_map]
      exact List.filterMap_congr fun p _ => Part.param?_token o.nodeAlias p
    rw [eq_compiled hrun]
    refine ⟨_, (spells_query halias model r).lex_eq, ?_⟩
    rw [htokens]
    exact ⟨hperm.nodup_iff.mp hnodup, hperm.symm⟩
  · intro f c warnings hrun
    rcases Compile.runFrom_of_runFresh hrun with ⟨p, hstep⟩
    rw [f.run_compile o hstep]
    exact ⟨fun name hname => Options.ne_paging_of_mem_names hname, f.params_compiled o⟩

/-- A field that is called like a paging parameter gets a name of its own. -/
theorem placeholders_query_skip :
    ∃ q, (query .default "user" (.find ⟨some [.leaf ⟨"skip", .eq, some (.string "x")⟩], [],
        some 1, some 2, []⟩)).runFresh = (.ok q, []) ∧
      ∃ tokens, Cypher.lex q.text = some tokens ∧ (tokens.filterMap Token.param?).Nodup ∧
        (tokens.filterMap Token.param?).Perm ["limit", "skip", "skip1"] := by
  obtain ⟨q, hrun, hnames⟩ : ∃ q, (query .default "user" (.find
      ⟨some [.leaf ⟨"skip", .eq, some (.string "x")⟩], [], some 1, some 2, []⟩)).runFresh =
        (.ok q, []) ∧ q.params.names = ["limit", "skip", "skip1"] := ⟨_, rfl, rfl⟩
  obtain ⟨tokens, hlex, hnodup, hperm⟩ :=
    (placeholders_query (by decide)).1 _ _ _ _ hrun
  rw [hnames] at hperm
  exact ⟨q, hrun, tokens, hlex, hnodup, hperm⟩

end Request

end GraphFilter
