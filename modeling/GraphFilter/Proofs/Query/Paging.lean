import GraphFilter.Proofs.Param.Whole
import GraphFilter.Proofs.Query.Selection

/-!
# Paging

A filter may say how many matches to skip and how many to return.  Each of the two numbers, if it
is asked for, adds a clause of its own at the end of the query and a parameter, and nothing else.
The numbers have 64 bits without a sign, while an integer parameter has 64 bits with a sign, so
that only the lower half of them is passed exactly.

Main results:

- Theorem {lit}`Param.ofInteger_toNat`: the parameter for a number of 64 bits.
- Theorem {lit}`Filter.get?_params_paging`: the parameters that page.
- Theorem {lit}`Query.find_paging`: what the two numbers change in a query.
-/

namespace GraphFilter

open Cypher (Token)
open Decimal (Binary64)

/-! ## The two numbers -/

/-- The numbers of a filter that say which of the matches to return. -/
inductive Paging where
  | skip
  | limit

namespace Paging

/-- The name of a number, in a filter and among the parameters. -/
def name : Paging → String
  | skip => "skip"
  | limit => "limit"

/-- The word of the clause for a number. -/
def keyword : Paging → Keyword
  | skip => .skip
  | limit => .limit

/-- The number that a filter gives. -/
def number? (f : Filter) : Paging → Option UInt64
  | skip => f.skip
  | limit => f.limit

/-- The number that a query pages by: the one that is given, except for zero where it does not
count. -/
def asked? (o : Options) (f : Filter) (k : Paging) : Option UInt64 :=
  (k.number? f).filter fun n => n != 0 || o.zeroPaging

/-- What a number adds to the text of a query. -/
def text (o : Options) (f : Filter) (k : Paging) : String :=
  if (k.asked? o f).isSome then " " ++ k.keyword.text ++ " $" ++ k.name else ""

section
variable (o : Options) (f : Filter) (k : Paging)

theorem clause_eq : o.pagingClause k.keyword.text k.name (k.number? f) =
    match k.asked? o f with
    | none => .empty
    | some n => ⟨k.keyword.text ++ " $" ++ k.name, .ofList [(k.name, .ofInteger n.toNat)]⟩ := by
  unfold Options.pagingClause asked?
  cases k.number? f with
  | none => rfl
  | some n =>
    by_cases hzero : n = 0 <;> cases hcounts : o.zeroPaging <;> simp [Option.filter, hzero]

theorem parts_eq : o.pagingParts k.keyword k.name (k.number? f) =
    match k.asked? o f with
    | none => []
    | some _ => [.keyword k.keyword, .placeholder k.name] := by
  unfold Options.pagingParts asked?
  cases k.number? f with
  | none => rfl
  | some n =>
    by_cases hzero : n = 0 <;> cases hcounts : o.zeroPaging <;> simp [Option.filter, hzero]

theorem spaced_clause :
    spaced (o.pagingClause k.keyword.text k.name (k.number? f)).text = k.text o f := by
  rw [clause_eq, text]
  cases k.asked? o f with
  | none => rfl
  | some n =>
    rw [spaced, if_neg (by simp)]
    simp [String.append_assoc]

theorem mem_clause_entries {p : Param} :
    (k.name, p) ∈ (o.pagingClause k.keyword.text k.name (k.number? f)).params.entries ↔
      ∃ n, k.asked? o f = some n ∧ p = .ofInteger n.toNat := by
  rw [clause_eq]
  cases k.asked? o f with
  | none => simp [Clause.empty, Bindings.empty]
  | some n => simp [Bindings.ofList, Bindings.insertAll, Bindings.insert, Bindings.empty, insertByKey]

end

end Paging

/-- The filter without its paging numbers. -/
def Filter.unpaged (f : Filter) : Filter :=
  { f with skip := none, limit := none }

/-! ## Parameters -/

/-- A number of 64 bits is passed as it is in the lower half of the range.  In the upper half the
nearest floating-point number takes its place. -/
theorem Param.ofInteger_toNat (n : UInt64) :
    (n.toNat < 2 ^ 63 → ∃ i : Int64, ofInteger n.toNat = int i ∧ i.toInt = n.toNat) ∧
      (2 ^ 63 ≤ n.toNat → ∃ x, ofInteger n.toNat = float x ∧
        Binary64.ofInt n.toNat = some x ∧ ∀ i : Int64, x.value ≠ i.toInt) := by
  have hsize := n.toNat_lt
  constructor
  · intro hlow
    have hholds : HoldsInteger n.toNat := ⟨by omega, by omega⟩
    refine ⟨Int64.ofInt n.toNat, ?_, toInt_ofInt_of_holds hholds⟩
    rw [ofInteger, if_pos hholds]
  · intro hhigh
    have hkeeps : Json.KeepsInteger n.toNat := ⟨by omega, by omega⟩
    have hholds : ¬HoldsInteger n.toNat := by
      unfold HoldsInteger
      omega
    rcases exists_ofInteger hkeeps hholds with ⟨x, hx, hfloat, hne⟩
    exact ⟨x, hfloat, hx, hne⟩

/-- Under the names for paging stand the numbers that the query pages by, whatever the fields of
the filter are called. -/
theorem Filter.get?_params_paging (o : Options) (f : Filter) (k : Paging) (p : Param) :
    (f.compiled o).params.get? k.name = some p ↔
      ∃ n, k.asked? o f = some n ∧ p = .ofInteger n.toNat := by
  have hnodup : (f.compiled o).params.names.Nodup := (Request.names_compiled o "" (.find f)).2
  have hcondition : (k.name, p) ∉ (f.compiled o).condition.params.entries := by
    intro hmem
    have hne := Options.ne_paging_of_mem_names (List.mem_map_of_mem hmem)
    cases k with
    | skip => exact hne.1 rfl
    | limit => exact hne.2 rfl
  have horder : (f.compiled o).order.params.entries = [] := o.names_compiledOrder f.order
  have hother {keyword name : String} {number : Option UInt64} (hne : k.name ≠ name) :
      (k.name, p) ∉ (o.pagingClause keyword name number).params.entries := by
    intro hmem
    have hname := (o.names_pagingClause_sublist keyword name number).subset
      (List.mem_map_of_mem hmem)
    exact hne (List.mem_singleton.mp hname)
  rw [Bindings.get?_eq_some_iff hnodup, (f.params_compiled o).mem_iff, horder, List.append_nil,
    List.mem_append, List.mem_append, or_iff_right hcondition, ← k.mem_clause_entries]
  cases k with
  | skip => exact or_iff_left (hother (by decide))
  | limit => exact or_iff_right (hother (by decide))

/-- A name for paging is among the parameters exactly if the query pages by its number. -/
theorem Filter.mem_names_paging_iff (o : Options) (f : Filter) (k : Paging) :
    k.name ∈ (f.compiled o).params.names ↔ (k.asked? o f).isSome = true := by
  have hnodup : (f.compiled o).params.names.Nodup := (Request.names_compiled o "" (.find f)).2
  rw [Bindings.mem_names_iff hnodup, Option.isSome_iff_exists]
  constructor
  · rintro ⟨p, hget⟩
    rcases (f.get?_params_paging o k p).mp hget with ⟨n, hn, -⟩
    exact ⟨n, hn⟩
  · rintro ⟨n, hn⟩
    exact ⟨_, (f.get?_params_paging o k _).mpr ⟨n, hn, rfl⟩⟩

/-! ## Texts -/

namespace Request

/-- The text of a query for nodes ends with the paging clauses. -/
theorem text_compiled_unpaged (o : Options) (model : String) (f : Filter) :
    ((find f).compiled o model).text =
      ((find f.unpaged).compiled o model).text ++ Paging.text o f .skip ++ Paging.text o f .limit := by
  have htext (g : Filter) : ((find g).compiled o model).text =
      Query.matchClause o model ++ (spaced (g.compiled o).condition.text ++
        (spaced ("RETURN " ++ (if (g.compiled o).projection.isEmpty then o.nodeAlias
          else (g.compiled o).projection)) ++
        (spaced (g.compiled o).order.text ++ (Paging.text o g .skip ++ Paging.text o g .limit)))) := by
    have htail : spaced (g.compiled o).tail = spaced (g.compiled o).order.text ++
        (Paging.text o g .skip ++ Paging.text o g .limit) := by
      rw [← Paging.spaced_clause, ← Paging.spaced_clause, CompiledFilter.tail, spaced_joinParts]
      simp only [List.map_cons, List.map_nil, String.join_cons, String.join_nil,
        String.append_empty]
      rfl
    rw [compiled, joinParts_cons (Query.isEmpty_matchClause o model), ← htail]
    simp only [List.map_cons, List.map_nil, String.join_cons, String.join_nil, String.append_empty]
  have hnone (k : Paging) : Paging.text o f.unpaged k = "" := by
    cases k <;> rfl
  rw [htext f, htext f.unpaged, hnone, hnone]
  simp only [String.append_assoc, String.append_empty]
  rfl

/-- The word and the parameter of a paging clause stand in the query exactly if it pages by the
number. -/
theorem infix_parts_iff (o : Options) (model : String) (f : Filter) (k : Paging) :
    [.word k.keyword.text, .param k.name] <:+: ((find f).parts o model).map (Part.token o.nodeAlias)
      ↔ (k.asked? o f).isSome = true := by
  constructor
  · intro hinfix
    have hmem : k.name ∈ ((find f).parts o model).filterMap Part.placeholder? := by
      have hparam : Token.param k.name ∈ ((find f).parts o model).map (Part.token o.nodeAlias) :=
        hinfix.subset (by simp)
      rcases List.mem_map.mp hparam with ⟨part, hpart, htoken⟩
      refine List.mem_filterMap.mpr ⟨part, hpart, ?_⟩
      rw [← Part.param?_token o.nodeAlias, htoken]
      rfl
    exact (f.mem_names_paging_iff o k).mp ((names_compiled o model (find f)).1.mem_iff.mpr hmem)
  · intro hasked
    rcases Option.isSome_iff_exists.mp hasked with ⟨n, hn⟩
    have hparts : [.keyword k.keyword, .placeholder k.name] <:+: (find f).pagingParts o := by
      have hown := k.parts_eq o f
      rw [hn] at hown
      dsimp only at hown
      rw [← hown]
      cases k with
      | skip => exact (List.prefix_append _ _).isInfix
      | limit => exact (List.suffix_append _ _).isInfix
    have hall : (find f).pagingParts o <:+: (find f).parts o model :=
      (List.suffix_append _ _).isInfix
    exact (hparts.trans hall).map (Part.token o.nodeAlias)

end Request

/-! ## Whole queries -/

namespace Filter

/-- The clauses of a filter that malformed parts may refuse. -/
def clauses (o : Options) (f : Filter) : Compile (Clause × Clause) := do
  let condition ← o.whereClause f.condition
  let order ← o.orderClause f.order
  return (condition, order)

/-- A compiled filter around these clauses. -/
def around (o : Options) (f : Filter) (clauses : Clause × Clause) : CompiledFilter where
  condition := clauses.1
  order := clauses.2
  skip := o.pagingClause "SKIP" "skip" f.skip
  limit := o.pagingClause "LIMIT" "limit" f.limit
  projection := o.projection f.fields

theorem compile_eq (o : Options) (f : Filter) :
    f.compile o = f.clauses o >>= fun clauses => pure (f.around o clauses) := by
  simp only [compile, clauses, bind_assoc, pure_bind]
  rfl

/-- Without its paging numbers, a filter is compiled with the same warnings. -/
theorem exists_compile_unpaged {o : Options} {f : Filter} {compiled : CompiledFilter}
    {warnings : List Warning} (hrun : (f.compile o).runFresh = (.ok compiled, warnings)) :
    ∃ bare, (f.unpaged.compile o).runFresh = (.ok bare, warnings) := by
  have hsame : f.unpaged.clauses o = f.clauses o := rfl
  rw [compile_eq] at hrun
  rcases Compile.exists_of_runFresh_map hrun with ⟨clauses, hclauses, -⟩
  rw [compile_eq, Compile.runFresh_map, hsame, hclauses]
  exact ⟨_, rfl⟩

end Filter

namespace Query

/-- Without its paging numbers, a filter makes a query with the same warnings. -/
theorem exists_find_unpaged {o : Options} {model : String} {f : Filter} {q : Query}
    {warnings : List Warning} (hrun : (find o model f).runFresh = (.ok q, warnings)) :
    ∃ bare, (find o model f.unpaged).runFresh = (.ok bare, warnings) := by
  rcases Compile.exists_of_runFresh_map hrun with ⟨compiled, hcompiled, -⟩
  rcases Filter.exists_compile_unpaged hcompiled with ⟨bare, hbare⟩
  rw [find, Compile.runFresh_map, hbare]
  exact ⟨_, rfl⟩

/-- A number adds its clause to the query, and its parameter, exactly if it is given and is not
zero, or zero counts; the rest of the query is that of the filter without paging numbers.  The
parameter is the number itself as an integer if it is below `2 ^ 63`, and otherwise the nearest
floating-point number. -/
theorem find_paging {o : Options} {model : String} {f : Filter} {q : Query}
    {warnings : List Warning} (hrun : (find o model f).runFresh = (.ok q, warnings)) :
    (∃ bare, (find o model f.unpaged).runFresh = (.ok bare, warnings) ∧
      q.text = bare.text ++ Paging.text o f .skip ++ Paging.text o f .limit) ∧
    ∀ k : Paging,
      (Cypher.isPlainName o.nodeAlias = true → ∃ tokens, Cypher.lex q.text = some tokens ∧
        ([.word k.keyword.text, .param k.name] <:+: tokens ↔ (k.asked? o f).isSome = true)) ∧
      (k.name ∈ q.params.names ↔ (k.asked? o f).isSome = true) ∧
      ∀ n, k.asked? o f = some n →
        (n.toNat < 2 ^ 63 →
          ∃ i : Int64, q.params.get? k.name = some (.int i) ∧ i.toInt = n.toNat) ∧
        (2 ^ 63 ≤ n.toNat → ∃ x, q.params.get? k.name = some (.float x) ∧
          Binary64.ofInt n.toNat = some x ∧ ∀ i : Int64, x.value ≠ i.toInt) := by
  have hq : q = (Request.find f).compiled o model := Request.eq_compiled hrun
  have hparams : q.params = (f.compiled o).params := by
    rw [hq]
    rfl
  constructor
  · rcases exists_find_unpaged hrun with ⟨bare, hbare⟩
    have hbare' : bare = (Request.find f.unpaged).compiled o model := Request.eq_compiled hbare
    refine ⟨bare, hbare, ?_⟩
    rw [hq, hbare']
    exact Request.text_compiled_unpaged o model f
  · intro k
    have hget := f.get?_params_paging o k
    rw [← hparams] at hget
    refine ⟨?_, ?_, ?_⟩
    · intro halias
      rw [hq]
      exact ⟨_, (Request.spells_query halias model (.find f)).lex_eq,
        Request.infix_parts_iff o model f k⟩
    · rw [hparams]
      exact f.mem_names_paging_iff o k
    · intro n hn
      have hvalue : q.params.get? k.name = some (.ofInteger n.toNat) := (hget _).mpr ⟨n, hn, rfl⟩
      rcases Param.ofInteger_toNat n with ⟨hlow, hhigh⟩
      constructor
      · intro hsmall
        rcases hlow hsmall with ⟨i, hi, hexact⟩
        exact ⟨i, hi ▸ hvalue, hexact⟩
      · intro hlarge
        rcases hhigh hlarge with ⟨x, hx, hnearest, hne⟩
        exact ⟨x, hx ▸ hvalue, hnearest, hne⟩

/-- Of a skip of zero nothing is left by default.  A limit of two is passed as an integer. -/
theorem find_paging_two : ∃ q,
    (find .default "user" ⟨none, [], some 0, some 2, []⟩).runFresh = (.ok q, []) ∧
      q.params.names = ["limit"] ∧
      ∃ i : Int64, q.params.get? "limit" = some (.int i) ∧ i.toInt = 2 := by
  obtain ⟨q, hrun, hnames⟩ : ∃ q,
      (find .default "user" ⟨none, [], some 0, some 2, []⟩).runFresh = (.ok q, []) ∧
        q.params.names = ["limit"] := ⟨_, rfl, rfl⟩
  exact ⟨q, hrun, hnames, (((find_paging hrun).2 .limit).2.2 2 rfl).1 (by decide)⟩

/-- A number that is too large for an integer is passed as a floating-point number, which is
another number here. -/
theorem find_limit_float : ∃ q x,
    (find .default "user" ⟨none, [], none, some 9223372036854775809, []⟩).runFresh =
      (.ok q, []) ∧
    q.params.get? "limit" = some (.float x) ∧ x.value = 9223372036854775808 := by
  have hfloat : Param.ofInteger (9223372036854775809 : UInt64).toNat =
      .float ⟨false, 4503599627370496, 11, by decide⟩ := by
    have hnearest : Binary64.ofInt 9223372036854775809 =
        some ⟨false, 4503599627370496, 11, by decide⟩ := by
      decide +kernel
    have hholds : ¬Param.HoldsInteger 9223372036854775809 := by decide
    change Param.ofInteger 9223372036854775809 = _
    rw [Param.ofInteger, if_neg hholds, hnearest]
  refine ⟨(Request.find ⟨none, [], none, some 9223372036854775809, []⟩).compiled .default "user",
    ⟨false, 4503599627370496, 11, by decide⟩, rfl, ?_, ?_⟩
  · exact (Filter.get?_params_paging .default _ .limit _).mpr ⟨_, rfl, hfloat.symm⟩
  · norm_num [Binary64.value, Binary64.magnitude]

end Query

end GraphFilter
