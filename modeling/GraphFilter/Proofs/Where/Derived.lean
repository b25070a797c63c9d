import GraphFilter.Proofs.Cypher.Derivation
import GraphFilter.Proofs.Cypher.Written
import GraphFilter.Proofs.Where.Obtained

/-!
# Where texts are expressions

The text of a where object that is compiled is an expression, unless there is nothing to say: it
is empty if no comparison is well-formed, at any depth.  If the where object was read from a text
or built, its groups are not repeated, and each joiner has its place.

Main results:

- Theorem {lit}`Tree.parts_eq_nil_iff_leaves`: an expression without parts has no leaves.
- Theorem {lit}`Where.derived_text`: what the text of a where object is.
-/

namespace GraphFilter

open Cypher (Lexes)

/-! ## Expressions that say nothing -/

/-- Where parentheses hold something, only the chain without terms has no atoms. -/
theorem Chain.Solid.atoms_eq_nil_iff {α : Type} {c : Chain α} (h : Solid c) :
    atoms c = [] ↔ c = [] := by
  induction h with
  | nil => simp [atoms]
  | atom j a _ _ => simp [atoms, termAtoms]
  | paren j hne _ _ ihterms _ => simp [atoms, termAtoms, ihterms, hne]

/-- Only an expression without leaves has no parts. -/
theorem Tree.parts_eq_nil_iff_leaves {t : Tree (Predicate Bound)} :
    t.parts = [] ↔ leaves t = [] := by
  rw [parts_eq_nil_iff, ← (solid_toChain t).atoms_eq_nil_iff, atoms_toChain,
    ← List.isEmpty_iff, ← List.isEmpty_iff, (textLeaves_perm t).isEmpty_eq]

/-- The parts of a tree are an expression, if there are any. -/
theorem Tree.isExpr_parts {t : Tree (Predicate Bound)} (h : t.parts ≠ []) : IsExpr t.parts :=
  (solid_toChain t).isExpr (parts_eq_nil_iff.not.mp h)

namespace Where

/-- No leaf is left if no comparison is well-formed. -/
theorem leaves_bind_eq_nil_iff (w : Where) (names : NameSupply) :
    Tree.leaves (w.bind.run names).1 = [] ↔ ∀ c ∈ Tree.leaves w, c.isWellFormed = false := by
  have hunbind : (Tree.leaves (w.bind.run names).1).map Predicate.unbind =
      (Tree.leaves w).filterMap Comparison.check? := by
    rw [← Tree.leaves_map, w.map_unbind_bind, Tree.leaves_filterMap]
  rw [← List.map_eq_nil_iff, hunbind, List.filterMap_eq_nil_iff]
  refine forall₂_congr fun c _ => ?_
  rw [← c.isSome_check?, Option.isSome_eq_false_iff, Option.isNone_iff_eq_none]

/-- The text is empty if no comparison is well-formed. -/
theorem text_eq_empty_iff {node : String} (halias : Cypher.isPlainName node = true) (w : Where)
    (names : NameSupply) : (Tree.clause node (w.bind.run names).1).text = "" ↔
      ∀ c ∈ Tree.leaves w, c.isWellFormed = false := by
  have hempty := isEmpty_clause halias w names
  rw [← w.leaves_bind_eq_nil_iff names, ← Tree.parts_eq_nil_iff_leaves, ← List.isEmpty_iff,
    ← hempty, Clause.isEmpty, String.isEmpty_iff]

/-! ## Where texts -/

/-- The text of a where object is empty or an expression of the grammar, in which parentheses
match and no joiner lacks a term.  It is empty exactly if no comparison is well-formed, and then
there are no parameters.  Where groups are not repeated it is written in pieces: `OR` stands in
front of the parentheses of an alternative group only, and `XOR` between the children in these
parentheses. -/
theorem derived_text {node : String} (halias : Cypher.isPlainName node = true) {strict : Bool}
    {w : Where} {names : NameSupply} {clause : Clause} {p : Progress}
    (hrun : (w.compile node strict).runFrom names = (.ok clause, p)) :
    ∃ t parts, clause = Tree.clause node t ∧
      Tree.map Predicate.unbind t = Tree.filterMap Comparison.check? w ∧
      Cypher.lex clause.text = some (parts.map (Part.token node)) ∧
      (clause.text = "" ∨ IsExpr parts ∧ Part.Balanced parts ∧ Part.WellJoined parts) ∧
      (clause.text = "" ↔ ∀ c ∈ Tree.leaves w, c.isWellFormed = false) ∧
      (clause.text = "" → clause.params = .empty) ∧
      (w.Obtainable → parts = Tree.written t) := by
  obtain rfl : clause = Tree.clause node (w.bind.run names).1 :=
    ((w.gives_compile node strict).of_runFrom hrun).1
  have hempty := text_eq_empty_iff halias w names
  refine ⟨(w.bind.run names).1, Tree.parts (w.bind.run names).1, rfl, w.map_unbind_bind names,
    (spells_tree halias w names).lex_eq, ?_, hempty, ?_, ?_⟩
  · by_cases hparts : Tree.parts (w.bind.run names).1 = []
    · exact .inl (hempty.mpr ((w.leaves_bind_eq_nil_iff names).mp
        (Tree.parts_eq_nil_iff_leaves.mp hparts)))
    · have hexpr := Tree.isExpr_parts hparts
      exact .inr ⟨hexpr, hexpr.balanced, hexpr.wellJoined⟩
  · intro htext
    have hleaves := (w.leaves_bind_eq_nil_iff names).mpr (hempty.mp htext)
    have hparams : (Tree.clause node (w.bind.run names).1).params =
        .ofList ((Tree.leaves (w.bind.run names).1).filterMap Predicate.binding?) := rfl
    rw [hparams, hleaves]
    rfl
  · intro hobtainable
    exact Tree.parts_eq_written (single_bind hobtainable.single names)

/-- A where object that was built, of which the second alternative has alternatives itself. -/
theorem derived_text_or :
    ∃ clause p, (((Where.empty.isNull "a").or [Where.empty.isNull "b",
        (Where.empty.isNull "c").or [Where.empty.isNull "d"]]).compile "n" true).runFrom .empty =
          (.ok clause, p) ∧
      ∃ t, clause = Tree.clause "n" t ∧
        Cypher.lex clause.text = some ((Tree.written t).map (Part.token "n")) ∧
        IsExpr (Tree.written t) := by
  obtain ⟨clause, p, hrun⟩ : ∃ clause p, (((Where.empty.isNull "a").or [Where.empty.isNull "b",
      (Where.empty.isNull "c").or [Where.empty.isNull "d"]]).compile "n" true).runFrom .empty =
        (.ok clause, p) := ⟨_, _, rfl⟩
  have hobtainable : Obtainable ((Where.empty.isNull "a").or [Where.empty.isNull "b",
      (Where.empty.isNull "c").or [Where.empty.isNull "d"]]) := by
    refine .or (.isNull .empty "a") ?_
    rw [List.forall_mem_cons, List.forall_mem_singleton]
    refine ⟨.isNull .empty "b", .or (.isNull .empty "c") ?_⟩
    rw [List.forall_mem_singleton]
    exact .isNull .empty "d"
  rcases derived_text (by decide) hrun with
    ⟨t, parts, hclause, -, hlex, hexpr, hempty, -, hwritten⟩
  cases hwritten hobtainable
  have htext : clause.text ≠ "" := by
    intro htext
    have hleaf : Comparison.isWellFormed ⟨"a", .eq, none⟩ = false :=
      hempty.mp htext _ (List.mem_cons_self ..)
    cases hleaf
  exact ⟨clause, p, hrun, t, hclause, hlex, (hexpr.resolve_left htext).1⟩

end Where

end GraphFilter
