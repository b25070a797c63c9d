import GraphFilter.Proofs.Where.Atoms
import GraphFilter.Proofs.Where.Drawn

/-!
# Numbers in input order

The text of a where object does not come in the order in which its comparisons were given, but
their placeholders are numbered in that order.  A number is used by each comparison that is bound
and by nothing else: neither a malformed comparison nor a test for null takes one, wherever it
stands.

Main results:

- Theorem {lit}`Where.bind_eq_nextAll`: names are handed out for the bound comparisons, in turn.
- Theorem {lit}`Where.forall₂_boundTo`: each bound comparison has the name of its own turn.
- Theorem {lit}`Where.numbered_in_order`: both, for a run in which malformed parts are left out.
-/

namespace GraphFilter

namespace Comparison

/-! ## Bound comparisons -/

/-- Whether a comparison is bound: it is well-formed and has an operand that is not null. -/
def isBound (c : Comparison) : Bool :=
  c.isWellFormed && c.operand?.isSome

theorem drawn?_eq (c : Comparison) : c.drawn? = if c.isBound then some c.field else none :=
  rfl

/-- If nothing is refused, the fields of the bound comparisons are drawn for. -/
theorem drawn_lenient (cs : List Comparison) :
    drawn false cs = (cs.filter isBound).map field := by
  rw [← List.filterMap_eq_filter, List.map_filterMap]
  refine List.filterMap_congr fun c _ => ?_
  rw [drawn?_eq, Option.guard]
  split <;> rfl

/-- A comparison that is not bound draws nothing. -/
theorem drawn_of_not_isBound {c : Comparison} (h : c.isBound = false) (strict : Bool) :
    drawn strict [c] = [] := by
  rw [drawn_singleton, drawn?_eq, h]
  rfl

/-- A step that works through a comparison that is not bound leaves the supply as it was. -/
theorem names_of_not_isBound {α : Type} {strict : Bool} {step : Compile α} {c : Comparison}
    (hc : c.isBound = false) (h : Compile.Draws strict step [c]) (s : NameSupply) :
    (step.runFrom s).2.names = s := by
  have hnames : (step.runFrom s).2.names = (s.nextAll (drawn strict [c])).2 := (h.of_runFrom rfl).1
  rw [hnames, drawn_of_not_isBound hc]
  rfl

/-- Checking tells whether a comparison is bound: its predicate has an operand. -/
theorem isBound_iff {c : Comparison} {p : Predicate Bound} (h : c.check? = some p.unbind) :
    c.isBound = p.placeholder?.isSome := by
  have hwell : c.isWellFormed = true := by
    rw [← c.isSome_check?, h]
    rfl
  have haccepts := accepts_of_check? h
  rcases p with ⟨field, test⟩
  cases test with
  | null negated =>
    rw [isBound, hwell, haccepts.2.1]
    rfl
  | relates relation operand =>
    rcases haccepts.2 with ⟨v, hoperand, -⟩
    rw [isBound, hwell, hoperand]
    rfl

/-- A comparison is bound to a name: a predicate of the tree asks for it under this name, and
the parameters hold the value of its operand there. -/
def BoundTo (t : Tree (Predicate Bound)) (params : Bindings) (c : Comparison) (name : String) :
    Prop :=
  ∃ p ∈ Tree.leaves t, c.check? = some p.unbind ∧ p.placeholder? = some name ∧
    ∃ v value, c.operand? = some v ∧ c.operator.value? v = some value ∧
      params.get? name = some value

end Comparison

namespace Where

/-- The comparisons of a where object that are bound, in input order. -/
def boundComparisons (w : Where) : List Comparison :=
  (Tree.leaves w).filter Comparison.isBound

/-! ## Numbering -/

/-- Binding hands out a name for each of the bound comparisons, in their order. -/
theorem bind_eq_nextAll (w : Where) (s : NameSupply) :
    (Tree.leaves (w.bind.run s).1).filterMap Predicate.placeholder? =
        (s.nextAll (w.boundComparisons.map Comparison.field)).1 ∧
      (w.bind.run s).2 = (s.nextAll (w.boundComparisons.map Comparison.field)).2 := by
  -- a run that leaves malformed comparisons out succeeds, and tells which names were drawn
  rcases w.agree_compile "" ⟨s, []⟩ with ⟨clause, left, hrun, -⟩
  have hleft : left = (w.bind.run s).2 := ((w.gives_compile "" false).of_runFrom hrun).2
  have hdraws := (w.draws_compile "" false).of_runFrom hrun
  have hhands := w.handsOut_bind s
  rw [← hleft] at hhands ⊢
  rw [boundComparisons, ← Comparison.drawn_lenient]
  exact ⟨(w.draws_compile "" false).names_eq hrun hhands, hdraws.1⟩

/-- The predicate of a comparison, if it has a placeholder, binds the comparison to it. -/
theorem boundTo_of_check? {node : String} {w : Where} {s : NameSupply} {c : Comparison}
    {p : Predicate Bound} (hp : p ∈ Tree.leaves (w.bind.run s).1)
    (hcheck : c.check? = some p.unbind) {name : String} (hname : p.placeholder? = some name) :
    c.BoundTo (w.bind.run s).1 (Tree.clause node (w.bind.run s).1).params name := by
  rcases Option.map_eq_some_iff.mp hname with ⟨⟨name, value⟩, hbinding, rfl⟩
  have hget : (Tree.clause node (w.bind.run s).1).params.get? name = some value :=
    get?_of_mem_bind ((Tree.textLeaves_perm _).mem_iff.mpr hp) hbinding
  refine ⟨p, hp, hcheck, hname, ?_⟩
  have haccepts := Comparison.accepts_of_check? hcheck
  rcases p with ⟨field, test⟩
  cases test with
  | null negated => cases hbinding
  | relates relation operand =>
    cases hbinding
    rcases haccepts.2 with ⟨v, hoperand, hvalue, -⟩
    exact ⟨v, operand.value, hoperand, hvalue, hget⟩

/-- Each of the bound comparisons has the placeholder of its own turn. -/
theorem forall₂_boundTo (node : String) (w : Where) (s : NameSupply) :
    List.Forall₂
      (Comparison.BoundTo (w.bind.run s).1 (Tree.clause node (w.bind.run s).1).params)
      w.boundComparisons
      ((Tree.leaves (w.bind.run s).1).filterMap Predicate.placeholder?) := by
  have hrow := (List.forall₂_and_left (p := (· ∈ Tree.leaves (w.bind.run s).1)) _ _).mpr
    ⟨fun _ hp => hp, w.forall₂_leaves_bind s⟩
  have hbound : w.boundComparisons = ((Tree.leaves w).filter Comparison.isWellFormed).filterMap
      (Option.guard Comparison.isBound) := by
    rw [List.filterMap_eq_filter, List.filter_filter, boundComparisons]
    refine List.filter_congr fun c _ => ?_
    rw [Comparison.isBound]
    cases c.isWellFormed <;> simp
  rw [hbound]
  refine List.rel_filterMap ?_ hrow.flip
  rintro c p ⟨hp, hcheck⟩
  rw [Option.guard, Comparison.isBound_iff hcheck]
  cases hname : p.placeholder? with
  | none => exact .none
  | some name => exact .some (boundTo_of_check? hp hcheck hname)

/-- The comparisons of a where object are numbered in the order in which they were given.  A run
in which malformed comparisons are left out gives a clause, and leaves the supply as if names had
been handed out for the fields of the bound comparisons alone; these have the names of their
turns.  What is not bound leaves the supply as it was, wherever it stands. -/
theorem numbered_in_order (node : String) (w : Where) (s : NameSupply) :
    (∃ t p, (w.compile node false).runFrom s = (.ok (Tree.clause node t), p) ∧
      Tree.map Predicate.unbind t = Tree.filterMap Comparison.check? w ∧
      p.names = (s.nextAll (w.boundComparisons.map Comparison.field)).2 ∧
      (Tree.leaves t).filterMap Predicate.placeholder? =
        (s.nextAll (w.boundComparisons.map Comparison.field)).1 ∧
      List.Forall₂ (Comparison.BoundTo t (Tree.clause node t).params) w.boundComparisons
        (s.nextAll (w.boundComparisons.map Comparison.field)).1) ∧
      ∀ c : Comparison, c.isBound = false →
        (∀ strict, ((c.bind? strict).runFrom s).2.names = s) ∧
          ((c.compile node).runFrom s).2.names = s := by
  constructor
  · rcases w.agree_compile node ⟨s, []⟩ with ⟨clause, left, hrun, -⟩
    rcases (w.gives_compile node false).of_runFrom hrun with ⟨rfl, hleft⟩
    rcases w.bind_eq_nextAll s with ⟨hnames, hsupply⟩
    refine ⟨(w.bind.run s).1, _, hrun, w.map_unbind_bind s, hleft.trans hsupply, hnames, ?_⟩
    rw [← hnames]
    exact w.forall₂_boundTo node s
  · intro c hc
    refine ⟨fun strict => ?_, ?_⟩
    · exact Comparison.names_of_not_isBound hc (c.draws_bind? strict) s
    · exact Comparison.names_of_not_isBound hc (c.draws_compile node) s

end Where

end GraphFilter
