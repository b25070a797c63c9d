import GraphFilter.Proofs.Cypher.SameText
import GraphFilter.Proofs.Param.Names
import GraphFilter.Proofs.Where.Binding

/-!
# Outlines of where objects

The outline of a where object is what remains of it without the values of its operands:
its groups, and the field and the operator of each comparison.  Two where objects of one
outline are worked through in step.  The same comparisons are given names, the supply of
names takes the same course, and the text that is written is the same.

Main results:

- Theorem {lit}`Comparison.outline_check?`: checking looks at no more of an operand than
  whether it is accepted.
- Theorem {lit}`Where.blank_bind`: where objects of one outline are given the same names.
- Theorem {lit}`Where.alike_clause`: their clauses differ in the values of parameters only.
-/

namespace GraphFilter

/-! ## Predicates without values -/

namespace Predicate

variable {α β : Type}

/-- Replace the operand of a predicate. -/
def map (f : α → β) (p : Predicate α) : Predicate β :=
  match p.test with
  | .null negated => ⟨p.field, .null negated⟩
  | .relates relation operand => ⟨p.field, .relates relation (f operand)⟩

/-- A predicate without its operand. -/
def outline (p : Predicate α) : Predicate Unit :=
  p.map fun _ => ()

/-- A bound predicate whose value is forgotten. -/
def blank (p : Predicate Bound) : Predicate Bound :=
  p.map fun operand => { operand with value := .null }

/-- The text of a predicate does not show the value. -/
@[simp]
theorem render_blank (node : String) (p : Predicate Bound) :
    p.blank.render node = p.render node := by
  rcases p with ⟨field, test⟩
  cases test <;> rfl

@[simp]
theorem placeholder?_blank (p : Predicate Bound) : p.blank.placeholder? = p.placeholder? := by
  rcases p with ⟨field, test⟩
  cases test <;> rfl

/-- Predicates of one outline are bound in step. -/
theorem blank_bind {p q : Predicate Param} (h : p.outline = q.outline) (names : NameSupply) :
    (p.bind names).1.blank = (q.bind names).1.blank ∧ (p.bind names).2 = (q.bind names).2 := by
  rcases p with ⟨field, test⟩
  rcases q with ⟨field', test'⟩
  cases test <;> cases test' <;> cases h <;> exact ⟨rfl, rfl⟩

end Predicate

/-! ## Comparisons -/

namespace Comparison

/-- What a comparison shows without the value of its operand. -/
structure Outline where
  field : String
  operator : Operator
  hasOperand : Bool
  isWellFormed : Bool
deriving DecidableEq

/-- The outline of a comparison. -/
def outline (c : Comparison) : Outline :=
  ⟨c.field, c.operator, c.operand?.isSome, c.isWellFormed⟩

/-- Comparisons of one outline are both accepted, as predicates of one outline, or both
malformed. -/
theorem outline_check? {c d : Comparison} (h : c.outline = d.outline) :
    c.check?.map Predicate.outline = d.check?.map Predicate.outline := by
  obtain ⟨hfield, hoperator, hoperand, hwell⟩ := Outline.mk.inj h
  rw [← c.isSome_check?, ← d.isSome_check?] at hwell
  cases hc : c.operand? with
  | none =>
    have hd : d.operand? = none := by
      rw [hc] at hoperand
      exact Option.not_isSome_iff_eq_none.mp (by simp [← hoperand])
    rw [check?_of_none hc, check?_of_none hd, hfield, hoperator]
  | some v =>
    obtain ⟨u, hd⟩ : ∃ u, d.operand? = some u := by
      rw [hc] at hoperand
      exact Option.isSome_iff_exists.mp hoperand.symm
    rw [check?_of_some hc, check?_of_some hd, hfield, hoperator] at hwell ⊢
    cases hrelation : relation? d.operator with
    | none => rfl
    | some entry =>
      rcases entry with ⟨relation, kind⟩
      rw [hrelation, Option.bind_some, Option.bind_some, Option.isSome_map,
        Option.isSome_map] at hwell
      -- an accepted operand leaves its relation behind and nothing else
      have hleft (value? : Option Param) :
          (value?.map fun value => Predicate.mk d.field (.relates relation value)).map
              Predicate.outline =
            if value?.isSome then some ⟨d.field, .relates relation ()⟩ else none := by
        cases value? <;> rfl
      rw [Option.bind_some, Option.bind_some, hleft, hleft, hwell]

/-- Comparisons of one outline are bound in step. -/
theorem blank_bindChecked {c d : Comparison} (h : c.outline = d.outline) :
    Option.map Predicate.blank <$> c.bindChecked =
      Option.map Predicate.blank <$> d.bindChecked := by
  have hcheck := outline_check? h
  unfold bindChecked
  cases hc : c.check? with
  | none =>
    rw [hc, Option.map_none, eq_comm, Option.map_eq_none_iff] at hcheck
    rw [hcheck]
  | some p =>
    rw [hc, Option.map_some, eq_comm, Option.map_eq_some_iff] at hcheck
    rcases hcheck with ⟨q, hd, houtline⟩
    rw [hd]
    funext names
    rcases Predicate.blank_bind houtline names with ⟨hblank, hnames⟩
    exact congrArg₂ (fun p names => (some p, names)) hblank.symm hnames.symm

end Comparison

/-! ## Clauses -/

/-- Clauses that differ in the values of their parameters only. -/
structure Clause.Alike (c d : Clause) : Prop where
  text : c.text = d.text
  names : c.params.names = d.params.names

theorem Clause.Alike.refl (c : Clause) : c.Alike c :=
  ⟨rfl, rfl⟩

/-- Trees of predicates with the same names have clauses that are alike. -/
theorem Tree.alike_clause (node : String) {s t : Tree (Predicate Bound)}
    (h : Tree.map Predicate.blank s = Tree.map Predicate.blank t) :
    (Tree.clause node s).Alike (Tree.clause node t) := by
  have htext (t : Tree (Predicate Bound)) :
      (Tree.clause node (Tree.map Predicate.blank t)).text = (Tree.clause node t).text := by
    rw [Tree.clause, Tree.clause, Tree.render_map]
    simp only [Predicate.render_blank]
  have hnames (t : Tree (Predicate Bound)) :
      (Tree.clause node (Tree.map Predicate.blank t)).params.names =
        (Tree.clause node t).params.names := by
    refine Bindings.names_ofList_congr ?_
    rw [Predicate.map_fst_filterMap_binding?, Predicate.map_fst_filterMap_binding?, Tree.leaves_map,
      List.filterMap_map]
    congr 1
    funext p
    exact p.placeholder?_blank
  constructor
  · rw [← htext s, h, htext t]
  · rw [← hnames s, h, hnames t]

/-! ## Where objects -/

namespace Where

/-- The outline of a where object. -/
def outline (w : Where) : Tree Comparison.Outline :=
  Tree.map Comparison.outline w

/-- Where objects of one outline are given the same names. -/
theorem blank_bind {w v : Where} (h : w.outline = v.outline) :
    Tree.map Predicate.blank <$> w.bind = Tree.map Predicate.blank <$> v.bind := by
  rw [bind, bind, Tree.map_filterMapM, Tree.map_filterMapM]
  exact Tree.filterMapM_congr (fun _ _ => Comparison.blank_bindChecked) h

/-- Their clauses differ in the values of parameters only. -/
theorem alike_clause (node : String) {w v : Where} (h : w.outline = v.outline)
    (names : NameSupply) :
    (Tree.clause node (w.bind.run names).1).Alike (Tree.clause node (v.bind.run names).1) :=
  Tree.alike_clause node (congrArg (fun pass => (StateT.run pass names).1) (blank_bind h))

end Where

end GraphFilter
