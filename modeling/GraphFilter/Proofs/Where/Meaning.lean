import GraphFilter.Proofs.Tree.Overstated
import GraphFilter.Proofs.Where.Atoms
import GraphFilter.Proofs.Where.Obtained

/-!
# What a where text means

The text of a where object is read by the precedence of its joiners, and evaluated with a
truth value for each of its predicates.  This is compared with the meaning of the tree of
well-formed comparisons.  The two agree where in each group a child that combines
comparisons or a conjunctive group with an alternative group is the only child with
well-formed comparisons, and they differ otherwise: the alternative of such a child is
then joined to its siblings.

Main results:

- Theorem {lit}`Tree.map_evalWith_value`: reading the text of a tree and evaluating it
  gives the truth value of the text.
- Theorem {lit}`Where.compile_means_iff`: the where text always means what the where object
  says exactly if the where object is separated.
-/

namespace GraphFilter

open Cypher (Atom Expr)

/-! ## Evaluating expressions -/

namespace Cypher.Expr

variable {α β : Type}

/-- The truth value of an expression, given those of its atoms. -/
def eval (f : α → Bool) : Expr α → Bool
  | atom a => f a
  | join j left right => j.apply (left.eval f) (right.eval f)

/-- The truth value of an expression whose atoms have the truth values of a list, from left
to right. -/
def evalWith (values : List Bool) : Expr α → Bool
  | atom _ => values.headD false
  | join j left right =>
    j.apply (left.evalWith (values.take left.atoms.length))
      (right.evalWith (values.drop left.atoms.length))

theorem length_atoms_map (f : α → β) (e : Expr α) : (e.map f).atoms.length = e.atoms.length := by
  induction e with
  | atom a => rfl
  | join j left right ihleft ihright =>
    rw [map, atoms, atoms, List.length_append, List.length_append, ihleft, ihright]

/-- The truth values of the atoms, in a row, do the same as the function that gives them. -/
theorem evalWith_map (f : α → β) (g : α → Bool) (e : Expr α) :
    (e.map f).evalWith (e.atoms.map g) = e.eval g := by
  induction e with
  | atom a => rfl
  | join j left right ihleft ihright =>
    have hlength : (left.map f).atoms.length = (left.atoms.map g).length := by
      rw [length_atoms_map, List.length_map]
    rw [map, evalWith, atoms, List.map_append, hlength, List.take_left, List.drop_left, ihleft,
      ihright, eval]

end Cypher.Expr

namespace Tree

/-- The operands of a tree with other leaves. -/
theorem row_map {α β γ : Type} (op : Joiner → γ → γ → γ) (leaf : β → γ) (f : α → β) (t : Tree α) :
    row op leaf (map f t) = row op (fun a => leaf (f a)) t := by
  induction t using induction with
  | step t ih =>
    have hgroup (c : Combinator) : Chain.row op leaf (groupTerms c (map f t)) =
        Chain.row op (fun a => leaf (f a)) (groupTerms c t) := by
      have hgroups : groups c (map f t) = (groups c t).map (List.map (map f)) :=
        groups_filterMap c _ t
      rw [row_groupTerms, row_groupTerms, hgroups, List.flatMap_map]
      refine List.flatMap_congr fun members hmembers => ?_
      have hchildren : (members.map (map f)).map (row op leaf) =
          members.map (row op fun a => leaf (f a)) := by
        rw [List.map_map]
        exact List.map_congr_left fun child hchild =>
          ih c child (List.mem_flatten.mpr ⟨members, hmembers, hchild⟩)
      rw [hchildren]
    rw [row_eq, row_eq, hgroup, hgroup, topLeaves_map, List.map_map]
    rfl

/-- The expression that the text of a tree is read as has the truth value of the text. -/
theorem map_evalWith_value {α β : Type} (f : α → β) {t : Tree α} {s : Tree Bool}
    (h : SameShape s t) :
    (Row.value Expr.join (row Expr.join (fun a => .atom (f a)) t)).map
      (Expr.evalWith (textLeaves s)) = truth s := by
  rcases exists_zip h with ⟨z, rfl, rfl⟩
  -- the expression of the tree of pairs
  generalize hz : Row.value Expr.join (row Expr.join Expr.atom z) = e
  have hatoms := atoms_value id z
  have hexpr : Row.value Expr.join (row Expr.join (fun a => .atom (f a)) (map Prod.snd z)) =
      e.map (Expr.map fun p => f p.2) := by
    have hjoin : ∀ (j : Joiner) (a b : Expr (Bool × α)), (Expr.join j a b).map (fun p => f p.2) =
        Expr.join j (a.map fun p => f p.2) (b.map fun p => f p.2) := fun _ _ _ => rfl
    rw [row_map, ← hz, Row.map_value hjoin, row, row, Chain.map_row Expr.join _ hjoin]
    rfl
  have htruth : truth (map Prod.fst z) = e.map (Expr.eval Prod.fst) := by
    have hjoin : ∀ (j : Joiner) (a b : Expr (Bool × α)), (Expr.join j a b).eval Prod.fst =
        j.apply (a.eval Prod.fst) (b.eval Prod.fst) := fun _ _ _ => rfl
    rw [truth, row_map, ← hz, Row.map_value hjoin, row, row, Chain.map_row Expr.join _ hjoin]
    rfl
  rw [hexpr, htruth, textLeaves_map]
  cases e with
  | none => rfl
  | some e =>
    have hleaves : textLeaves z = e.atoms := by
      rw [List.map_id] at hatoms
      rw [← hatoms]
      simp only [id] at hz ⊢
      rw [hz]
      rfl
    rw [hleaves, Option.map_some, Option.map_some, Option.map_some, Expr.evalWith_map]

end Tree

/-! ## Where objects -/

namespace Where

open GraphFilter.Tree (SameShape textLeaves)

/-- A where object without its malformed comparisons. -/
def wellFormed (w : Where) : Where :=
  Tree.filterMap (Option.guard Comparison.isWellFormed) w

/-- What is compiled has the shape of the well-formed comparisons. -/
theorem sameShape_bind (w : Where) (names : NameSupply) :
    SameShape (w.bind.run names).1 w.wellFormed := by
  have hguard (c : Comparison) : c.check?.bind (fun _ => some ()) =
      (Option.guard Comparison.isWellFormed c).bind fun _ => some () := by
    rw [Option.guard, ← c.isSome_check?]
    cases c.check? <;> rfl
  have hbind : Tree.shape (w.bind.run names).1 =
      Tree.filterMap (fun c => c.check?.bind fun _ => some ()) w := by
    rw [← Tree.shape_map Predicate.unbind, w.map_unbind_bind]
    exact Tree.filterMap_filterMap _ _ w
  have hwell : Tree.shape w.wellFormed =
      Tree.filterMap (fun c => (Option.guard Comparison.isWellFormed c).bind fun _ => some ()) w :=
    Tree.filterMap_filterMap _ _ w
  rw [SameShape, hbind, hwell]
  congr 1
  funext c
  exact hguard c

/-- The where text is read as an expression of the well-formed comparisons in text order,
which evaluates to the truth value of the text. -/
theorem exists_readCondition {node : String} (halias : Cypher.isPlainName node = true)
    {strict : Bool} {w : Where} {names : NameSupply} {c : Clause} {p : Progress}
    (hrun : (w.compile node strict).runFrom names = (.ok c, p)) :
    ∃ e, Cypher.readCondition node c.text = some e ∧
      List.Forall₂ (Atom.Shows c.params) ((e.map Expr.atoms).getD []) (textLeaves w.wellFormed) ∧
        ∀ s : Tree Bool, SameShape s w.wellFormed →
          e.map (Expr.evalWith (textLeaves s)) = Tree.truth s := by
  have hc : c = Tree.clause node (w.bind.run names).1 :=
    ((w.gives_compile node strict).of_runFrom hrun).1
  have hleaves : textLeaves w.wellFormed = (textLeaves w).filter Comparison.isWellFormed := by
    rw [wellFormed, Tree.textLeaves_filterMap, List.filterMap_eq_filter]
  rw [hc]
  refine ⟨_, readCondition_bind halias w names, ?_, ?_⟩
  · rw [Tree.atoms_value, hleaves]
    exact forall₂_shows node w names
  · intro s hshape
    have hbound : SameShape s (w.bind.run names).1 := hshape.trans (w.sameShape_bind names).symm
    exact Tree.map_evalWith_value Predicate.atom hbound

/-- The text of a where object is read by precedence as an expression of its well-formed
comparisons.  Evaluated with truth values for them, it always gives the meaning of the
where object exactly if in each group a mixed child is the only one with well-formed
comparisons. -/
theorem compile_means_iff {node : String} (halias : Cypher.isPlainName node = true)
    {strict : Bool} {w : Where} (hw : w.Obtainable) {names : NameSupply} {c : Clause} {p : Progress}
    (hrun : (w.compile node strict).runFrom names = (.ok c, p)) :
    ∃ e, Cypher.readCondition node c.text = some e ∧
      List.Forall₂ (Atom.Shows c.params) ((e.map Expr.atoms).getD []) (textLeaves w.wellFormed) ∧
        ((∀ s : Tree Bool, SameShape s w.wellFormed →
            e.map (Expr.evalWith (textLeaves s)) = Tree.meaning s) ↔
          Tree.Separated w.wellFormed) := by
  rcases exists_readCondition halias hrun with ⟨e, hread, hatoms, htruth⟩
  have hsingle : Tree.SingleGroups w.wellFormed := hw.single.filterMap _
  refine ⟨e, hread, hatoms, ?_⟩
  rw [← Tree.forall_truth_eq_meaning_iff hsingle]
  exact forall₂_congr fun s hshape => by rw [htruth s hshape]

/-- A mixed child that has its group for itself. -/
theorem compile_means_alone :
    ∃ c p, (Where.compile "n" true ((Where.empty.and [(Where.empty.isNull "a").or
        [Where.empty.isNull "b", Where.empty.isNull "c"]]).isNull "d")).runFrom .empty =
          (.ok c, p) ∧
      ∃ e, Cypher.readCondition "n" c.text = some e ∧
        ∀ s : Tree Bool, SameShape s [.group .and [[.leaf (), .group .or [[.leaf ()], [.leaf ()]]]],
            .leaf ()] → e.map (Expr.evalWith (textLeaves s)) = Tree.meaning s := by
  have hnull (field : String) : (Where.empty.isNull field).Obtainable := Obtainable.empty.isNull field
  have hobtainable : ((Where.empty.and [(Where.empty.isNull "a").or
      [Where.empty.isNull "b", Where.empty.isNull "c"]]).isNull "d").Obtainable := by
    refine (Obtainable.empty.and ?_).isNull "d"
    rw [List.forall_mem_singleton]
    refine (hnull "a").or ?_
    rw [List.forall_mem_cons, List.forall_mem_singleton]
    exact ⟨hnull "b", hnull "c"⟩
  have hleaf : Tree.Separated [Condition.leaf ()] :=
    Tree.Separated.of_children (by simp) (by simp)
  have hinner : Tree.Separated [.leaf (), .group .or [[Condition.leaf ()], [.leaf ()]]] := by
    refine Tree.Separated.of_children ?_ ?_
    · intro c
      cases c <;> simp [Tree.Mixed, Tree.backLeaves]
    · intro c
      cases c <;> simp [hleaf]
  have hseparated : Tree.Separated
      [.group .and [[.leaf (), .group .or [[Condition.leaf ()], [.leaf ()]]]], .leaf ()] := by
    refine Tree.Separated.of_children ?_ ?_
    · intro c
      cases c <;> simp
    · intro c
      cases c <;> simp [hinner]
  obtain ⟨c, p, hrun⟩ : ∃ c p, (Where.compile "n" true ((Where.empty.and
      [(Where.empty.isNull "a").or [Where.empty.isNull "b", Where.empty.isNull "c"]]).isNull
        "d")).runFrom .empty = (.ok c, p) := ⟨_, _, rfl⟩
  rcases compile_means_iff (by decide) hobtainable hrun with ⟨e, hread, -, hmeans⟩
  have hshape : SameShape ((Where.empty.and [(Where.empty.isNull "a").or
      [Where.empty.isNull "b", Where.empty.isNull "c"]]).isNull "d").wellFormed
        [.group .and [[.leaf (), .group .or [[.leaf ()], [.leaf ()]]]], .leaf ()] := rfl
  refine ⟨c, p, hrun, e, hread, ?_⟩
  intro s hs
  exact hmeans.mpr (hseparated.of_sameShape hshape) s (hs.trans hshape.symm)

/-- A child that combines a comparison with an alternative group stands beside another
child: the text of the group is true although both children are. -/
theorem compile_means_crowded :
    ∃ w : Where, w.Obtainable ∧ ∃ c p,
      (w.compile "n" false).runFrom .empty = (.ok c, p) ∧
        c.text = "(n.a IS NULL OR (n.b IS NULL) XOR n.c IS NULL)" ∧
          ∃ e, Cypher.readCondition "n" c.text = some e ∧
            ∃ s : Tree Bool, SameShape s w.wellFormed ∧
              e.map (Expr.evalWith (textLeaves s)) = some true ∧ Tree.meaning s = some false := by
  have hnull (field : String) : (Where.empty.equal field .null).Obtainable :=
    Obtainable.empty.compare field .eq .null
  have hobtainable : (Where.empty.or [(Where.empty.equal "a" .null).or
      [Where.empty.equal "b" .null], Where.empty.equal "c" .null]).Obtainable := by
    refine Obtainable.empty.or ?_
    rw [List.forall_mem_cons, List.forall_mem_singleton]
    refine ⟨(hnull "a").or ?_, hnull "c"⟩
    rw [List.forall_mem_singleton]
    exact hnull "b"
  obtain ⟨c, p, hrun, htext⟩ : ∃ c p, (Where.compile "n" false (Where.empty.or
      [(Where.empty.equal "a" .null).or [Where.empty.equal "b" .null],
        Where.empty.equal "c" .null])).runFrom .empty = (.ok c, p) ∧
          c.text = "(n.a IS NULL OR (n.b IS NULL) XOR n.c IS NULL)" := ⟨_, _, rfl, rfl⟩
  rcases exists_readCondition (by decide) hrun with ⟨e, hread, -, htruth⟩
  have hshape : SameShape
      [.group .or [[.leaf true, .group .or [[.leaf false]]], [Condition.leaf true]]]
        (Where.empty.or [(Where.empty.equal "a" .null).or [Where.empty.equal "b" .null],
          Where.empty.equal "c" .null]).wellFormed := rfl
  refine ⟨_, hobtainable, c, p, hrun, htext, e, hread, _, hshape, ?_, ?_⟩
  · rw [htruth _ hshape]
    rfl
  · have hleaf (b : Bool) : Tree.meaning [.leaf b] = some b := by
      rw [Tree.meaning_eq]
      rfl
    have hfirst : Tree.meaning [.leaf true, .group .or [[.leaf false]]] = some true := by
      rw [Tree.meaning_eq]
      simp [Tree.groupMeaning, Tree.topLeaves, Tree.joiner, Joiner.combine, Joiner.apply,
        Joiner.unit, hleaf]
    rw [Tree.meaning_eq]
    simp [Tree.groupMeaning, Tree.topLeaves, Tree.joiner, Joiner.combine, Joiner.apply,
      Joiner.unit, hfirst, hleaf]

end Where

end GraphFilter
