import GraphFilter.Proofs.Query.Placeholders
import GraphFilter.Proofs.Where.Malformed

/-!
# The nodes that a query selects

A query that returns nodes and one that counts them, asked with the same where object, select
the same nodes: their texts begin with the same clauses, and they pass the same operands.
What the first one adds are order entries, which may be refused, and the two paging numbers,
whose names no operand has.

Main results:

- Theorem {lit}`Compile.runFresh_map`: arranging the result of a step changes neither refusals
  nor warnings.
- Theorem {lit}`Filter.without_params_compiled`: without the paging numbers, the parameters of a
  filter are those of its where clause.
- Theorem {lit}`Query.find_count`: the two queries for one where object.
-/

namespace GraphFilter

/-! ## Parameters that are removed -/

/-- An entry whose key is left out anyway can be inserted before or not. -/
theorem filter_insertByKey {α : Type} (keep : String → Bool) {key : String}
    (h : keep key = false) (value : α) (entries : List (String × α)) :
    (insertByKey key value entries).filter (fun entry => keep entry.1) =
      entries.filter fun entry => keep entry.1 := by
  induction entries with
  | nil => simp [insertByKey, h]
  | cons entry rest ih =>
    rcases entry with ⟨k, v⟩
    rw [insertByKey]
    split
    · rw [List.filter_cons_of_neg (by simp [h])]
    · split
      · rename_i heq
        rw [List.filter_cons_of_neg (by simp [h]), List.filter_cons_of_neg (by simp [← heq, h])]
      · rw [List.filter_cons, List.filter_cons, ih]

namespace Bindings

/-- The bindings of all other names. -/
def without (b : Bindings) (names : List String) : Bindings :=
  ⟨b.entries.filter fun entry => entry.1 ∉ names⟩

/-- Names that are removed may be bound before or not. -/
theorem without_union {b c : Bindings} {removed : List String} (h : c.names ⊆ removed) :
    (b.union c).without removed = b.without removed := by
  rcases c with ⟨entries⟩
  unfold union
  induction entries generalizing b with
  | nil => rfl
  | cons entry rest ih =>
    rcases entry with ⟨name, value⟩
    rw [names, List.map_cons, List.cons_subset] at h
    have hinsert : (b.insert name value).without removed = b.without removed := by
      unfold without insert
      rw [filter_insertByKey (fun name => decide (name ∉ removed)) (by simp [h.1])]
    exact (ih h.2).trans hinsert

/-- Nothing is removed if none of the names is bound. -/
theorem without_eq_self {b : Bindings} {removed : List String}
    (h : ∀ name ∈ b.names, name ∉ removed) : b.without removed = b := by
  have hall : b.entries.filter (fun entry => entry.1 ∉ removed) = b.entries := by
    refine List.filter_eq_self.mpr ?_
    intro entry hentry
    exact decide_eq_true (h entry.1 (List.mem_map_of_mem hentry))
  rw [without, hall]

end Bindings

/-- The names of the paging numbers. -/
def pagingNames : List String :=
  ["skip", "limit"]

/-- Without the paging numbers, the parameters of a filter are those of its where clause. -/
theorem Filter.without_params_compiled (o : Options) (f : Filter) :
    (f.compiled o).params.without pagingNames = (o.compiledCondition f.condition).params := by
  have horder : (f.compiled o).order.params.names ⊆ pagingNames := by
    have hnone : (f.compiled o).order.params.entries = [] := o.names_compiledOrder f.order
    rw [Bindings.names, hnone]
    exact List.nil_subset _
  have hskip : (f.compiled o).skip.params.names ⊆ pagingNames := by
    have hname := (o.names_pagingClause_sublist "SKIP" "skip" f.skip).subset
    exact List.Subset.trans hname (by simp [pagingNames])
  have hlimit : (f.compiled o).limit.params.names ⊆ pagingNames := by
    have hname := (o.names_pagingClause_sublist "LIMIT" "limit" f.limit).subset
    exact List.Subset.trans hname (by simp [pagingNames])
  have hcondition : ∀ name ∈ (o.compiledCondition f.condition).params.names,
      name ∉ pagingNames := by
    intro name hname
    simpa [pagingNames] using Options.ne_paging_of_mem_names hname
  rw [CompiledFilter.params, Bindings.without_union hlimit, Bindings.without_union hskip,
    Bindings.without_union horder]
  exact Bindings.without_eq_self hcondition

/-! ## Texts that begin alike -/

/-- An empty text leaves no trace behind another one. -/
theorem joinParts_of_isEmpty {second : String} (h : second.isEmpty = true) (first : String)
    (rest : List String) : joinParts (first :: second :: rest) = joinParts (first :: rest) := by
  rw [joinParts, joinParts, List.filter_cons, List.filter_cons, List.filter_cons,
    if_neg (by simp [h] : ¬(!second.isEmpty) = true)]

/-- One blank stands between two texts. -/
theorem joinParts_cons_cons {first second : String} (hfirst : first.isEmpty = false)
    (hsecond : second.isEmpty = false) (rest : List String) :
    joinParts (first :: second :: rest) = first ++ " " ++ joinParts (second :: rest) := by
  rw [joinParts, joinParts, List.filter_cons_of_pos (by simp [hfirst]),
    List.filter_cons_of_pos (by simp [hsecond]), String.intercalate_cons_cons]

/-- A text with a blank in front of it, unless it is empty. -/
def spaced (text : String) : String :=
  if text.isEmpty then "" else " " ++ text

/-- Behind the first text, each one comes with its blank. -/
theorem joinParts_cons {first : String} (hfirst : first.isEmpty = false) (rest : List String) :
    joinParts (first :: rest) = first ++ String.join (rest.map spaced) := by
  induction rest generalizing first with
  | nil => simp [joinParts, hfirst]
  | cons second rest ih =>
    rw [List.map_cons, String.join_cons, spaced]
    cases hsecond : second.isEmpty with
    | true => rw [joinParts_of_isEmpty hsecond, ih hfirst, if_pos rfl, String.empty_append]
    | false =>
      rw [joinParts_cons_cons hfirst hsecond, ih hsecond, if_neg Bool.false_ne_true]
      simp only [String.append_assoc]

/-- Texts that were joined before are joined to others as they are. -/
theorem spaced_joinParts (texts : List String) :
    spaced (joinParts texts) = String.join (texts.map spaced) := by
  induction texts with
  | nil => rfl
  | cons first rest ih =>
    rw [List.map_cons, String.join_cons]
    cases hfirst : first.isEmpty with
    | true =>
      have hjoin : joinParts (first :: rest) = joinParts rest := by
        simp [joinParts, hfirst]
      rw [hjoin, ih, spaced, hfirst, if_pos rfl, String.empty_append]
    | false =>
      have hnext : (first ++ String.join (rest.map spaced)).isEmpty = false := by
        simp_all
      rw [joinParts_cons hfirst, spaced, hnext, spaced, hfirst, if_neg Bool.false_ne_true,
        if_neg Bool.false_ne_true, String.append_assoc]

/-- A where clause is empty or begins with its keyword. -/
theorem Options.compiledCondition_keyword (o : Options) (w : Option Where) :
    (o.compiledCondition w).text = "" ∨
      ∃ condition, (o.compiledCondition w).text = "WHERE " ++ condition := by
  cases w with
  | none => exact .inl rfl
  | some w =>
    rw [compiledCondition, withKeyword]
    split
    · rename_i hempty
      exact .inl (String.isEmpty_iff.mp hempty)
    · exact .inr ⟨_, rfl⟩

namespace Query

/-- The clauses that select the nodes of a query. -/
def selection (o : Options) (model : String) (condition : Clause) : String :=
  matchClause o model ++ (if condition.isEmpty then "" else " " ++ condition.text)

theorem isEmpty_matchClause (o : Options) (model : String) :
    (matchClause o model).isEmpty = false := by
  simp [matchClause]

/-- A query begins with the clauses that select its nodes, and what it returns follows. -/
theorem exists_behind_selection (o : Options) (model : String) (condition : Clause)
    (returned : String) (rest : List String) : ∃ behind,
      joinParts (matchClause o model :: condition.text :: ("RETURN " ++ returned) :: rest) =
        selection o model condition ++ " RETURN" ++ behind := by
  have hreturn : spaced ("RETURN " ++ returned) = " RETURN" ++ (" " ++ returned) := by
    have hkeyword : " " ++ "RETURN " = " RETURN" ++ " " := by decide
    rw [spaced, if_neg (by simp), ← String.append_assoc, hkeyword, String.append_assoc]
  have hselection : selection o model condition =
      matchClause o model ++ spaced condition.text := rfl
  refine ⟨" " ++ returned ++ String.join (rest.map spaced), ?_⟩
  rw [joinParts_cons (isEmpty_matchClause o model), List.map_cons, List.map_cons,
    String.join_cons, String.join_cons, hreturn, hselection]
  simp only [String.append_assoc]

end Query

/-! ## The two queries -/

/-- Arranging the result of a step changes neither its refusals nor its warnings. -/
theorem Compile.runFresh_map {α β : Type} (step : Compile α) (f : α → β) :
    (step >>= fun a => pure (f a)).runFresh = (step.runFresh.1.map f, step.runFresh.2) := by
  unfold runFresh runFrom
  cases hstep : step.run.run ⟨.empty, []⟩ with
  | mk result p =>
    cases result with
    | ok a => rw [run_bind_of_ok hstep]; rfl
    | error e => rw [run_bind_of_error hstep]; rfl

/-- An arranged result comes from a result of the step. -/
theorem Compile.exists_of_runFresh_map {α β : Type} {step : Compile α} {f : α → β} {b : β}
    {warnings : List Warning} (h : (step >>= fun a => pure (f a)).runFresh = (.ok b, warnings)) :
    ∃ a, step.runFresh = (.ok a, warnings) ∧ f a = b := by
  rw [runFresh_map] at h
  cases hstep : step.runFresh with
  | mk result warnings' =>
    rw [hstep] at h
    cases result with
    | error error => cases h
    | ok a =>
      cases h
      exact ⟨a, rfl, rfl⟩

/-- A step that is refused is refused with whatever would follow. -/
theorem Compile.runFresh_bind_of_error {α β : Type} {step : Compile α} {error : FilterError}
    {warnings : List Warning} (h : step.runFresh = (.error error, warnings))
    (next : α → Compile β) : (step >>= next).runFresh = (.error error, warnings) := by
  unfold runFresh runFrom at *
  cases hstep : step.run.run ⟨.empty, []⟩ with
  | mk result p =>
    rw [hstep] at h
    cases h
    rw [run_bind_of_error hstep]

namespace Query

/-- If counting is refused, so is finding, with the same error.  And if nodes are found, they can
be counted: both texts begin with the same clauses, behind which comes what is returned, and
the query that counts passes the parameters of the other one without the paging numbers.
These are no operands, whatever the fields are called. -/
theorem find_count (o : Options) (model : String) (f : Filter) :
    (∀ error warnings, (count o model f.condition).runFresh = (.error error, warnings) →
      (find o model f).runFresh = (.error error, warnings)) ∧
    (∀ q warnings, (find o model f).runFresh = (.ok q, warnings) →
      ∃ clause counting warnings',
        (o.whereClause f.condition).runFresh = (.ok clause, warnings') ∧
          (clause.text = "" ∨ ∃ condition, clause.text = "WHERE " ++ condition) ∧
          (count o model f.condition).runFresh = (.ok counting, warnings') ∧
          (∃ behind, q.text = selection o model clause ++ " RETURN" ++ behind) ∧
          (∃ behind, counting.text = selection o model clause ++ " RETURN" ++ behind) ∧
          counting.params = clause.params ∧
          counting.params = q.params.without ["skip", "limit"] ∧
          ∀ name ∈ counting.params.names, name ≠ "skip" ∧ name ≠ "limit") := by
  have hcount := Compile.runFresh_map (o.whereClause f.condition) fun clause : Clause =>
    (⟨joinParts [matchClause o model, clause.text, "RETURN count(" ++ o.nodeAlias ++ ") AS count"],
      clause.params⟩ : Query)
  cases hclause : (o.whereClause f.condition).runFresh with
  | mk result warnings' =>
    rw [hclause] at hcount
    cases result with
    | error error =>
      have hfind : (find o model f).runFresh = (.error error, warnings') :=
        Compile.runFresh_bind_of_error (Compile.runFresh_bind_of_error hclause _) _
      constructor
      · intro error' warnings hrun
        cases hcount.symm.trans hrun
        exact hfind
      · intro q warnings hrun
        cases hfind.symm.trans hrun
    | ok clause =>
      constructor
      · intro error warnings hrun
        cases hcount.symm.trans hrun
      · intro q warnings hrun
        rcases Compile.runFrom_of_runFresh hclause with ⟨p, hfrom⟩
        have hcompiled : clause = o.compiledCondition f.condition := o.run_whereClause _ hfrom
        have hq : q = (Request.find f).compiled o model := Request.eq_compiled hrun
        have hreturn : "RETURN count(" ++ o.nodeAlias ++ ") AS count" =
            "RETURN " ++ ("count(" ++ o.nodeAlias ++ ") AS count") := by
          have hkeyword : "RETURN count(" = "RETURN " ++ "count(" := by decide
          rw [hkeyword]
          simp only [String.append_assoc]
        have hparams : clause.params = q.params.without pagingNames := by
          rw [hcompiled, hq]
          exact (f.without_params_compiled o).symm
        refine ⟨clause, _, warnings', rfl, ?_, hcount, ?_, ?_, rfl, hparams, ?_⟩
        · rw [hcompiled]
          exact Options.compiledCondition_keyword o f.condition
        · rw [hq, hcompiled]
          exact exists_behind_selection o model _ _ [(f.compiled o).tail]
        · have htext := exists_behind_selection o model clause
            ("count(" ++ o.nodeAlias ++ ") AS count") []
          rw [← hreturn] at htext
          exact htext
        · intro name hname
          rw [hcompiled] at hname
          exact Options.ne_paging_of_mem_names hname

/-- A condition on a field that is called like a paging number passes its operand under a name
of its own, which both queries keep. -/
theorem find_count_skip :
    ∃ q counting warnings, (find .default "user" ⟨some [.leaf ⟨"skip", .eq, some (.string "x")⟩],
        [], some 1, some 2, []⟩).runFresh = (.ok q, []) ∧
      (count .default "user" (some [.leaf ⟨"skip", .eq, some (.string "x")⟩])).runFresh =
        (.ok counting, warnings) ∧
      q.params.names = ["limit", "skip", "skip1"] ∧ counting.params.names = ["skip1"] ∧
      counting.params = q.params.without ["skip", "limit"] := by
  obtain ⟨q, hrun, hnames, hrest⟩ : ∃ q, (find .default "user"
      ⟨some [.leaf ⟨"skip", .eq, some (.string "x")⟩], [], some 1, some 2, []⟩).runFresh =
        (.ok q, []) ∧ q.params.names = ["limit", "skip", "skip1"] ∧
        (q.params.without ["skip", "limit"]).names = ["skip1"] := ⟨_, rfl, rfl, rfl⟩
  obtain ⟨_, counting, warnings, -, -, hcount, -, -, -, hparams, -⟩ :=
    (find_count .default "user" _).2 q [] hrun
  rw [← hparams] at hrest
  exact ⟨q, counting, warnings, hrun, hcount, hnames, hrest, hparams⟩

end Query

end GraphFilter
