import GraphFilter.Where.Compile
import GraphFilter.Proofs.Placeholder.Fresh
import GraphFilter.Proofs.Tree.Shape
import GraphFilter.Proofs.Where.Checked
import Mathlib.Data.List.Forall2

/-!
# Compiling without warnings and refusals

A where object that is not refused compiles to the same text whether or not
malformed parts are tolerated, and its warnings have no influence on the text.  What
is left of compiling is a pass over the leaves that hands out names.

Main results:

- Theorem {lit}`Where.gives_compile`: compiling, where it succeeds, is this pass
  followed by rendering.
- Theorem {lit}`Where.handsOut_bind`: the pass hands out a new name for each operand.
- Theorem {lit}`Where.map_unbind_bind`: the names aside, it keeps the well-formed
  comparisons where they were.
- Theorem {lit}`Where.forall₂_bind`: so the predicates correspond to them one by one.
-/

namespace GraphFilter

/-! ## Steps that succeed -/

namespace Compile

variable {α β : Type}

/-- Where a step succeeds, its result and the names it leaves are those of a step
that only works with names. -/
def Gives (step : Compile α) (pass : StateM NameSupply α) : Prop :=
  ∀ p q a, step.run.run p = (.ok a, q) → pass.run p.names = (a, q.names)

theorem gives_pure (a : α) : Gives (pure a) (pure a) := by
  intro p q b h
  cases h
  rfl

theorem gives_throw (error : FilterError) (pass : StateM NameSupply α) :
    Gives (throw error) pass := by
  intro p q b h
  cases h

theorem gives_withNames (f : NameSupply → α × NameSupply) : Gives (withNames f) f := by
  intro p q b h
  cases h
  rfl

/-- A refused part that is left out gives nothing. -/
theorem gives_reject (strict : Bool) (error : FilterError) (warning : Warning) :
    Gives (reject (α := α) strict error warning) (pure none) := by
  unfold reject
  split
  · exact gives_throw error _
  · intro p q b h
    cases h
    rfl

/-- A run of two steps that succeeds is a run of the first one and then of the
second one. -/
theorem run_bind_eq_ok {step : Compile α} {next : α → Compile β} {p r : Progress} {b : β}
    (h : (step >>= next).run.run p = (.ok b, r)) :
    ∃ a q, step.run.run p = (.ok a, q) ∧ (next a).run.run q = (.ok b, r) := by
  rw [ExceptT.run_bind, StateT.run_bind] at h
  cases hstep : step.run.run p with
  | mk result q =>
    rw [hstep] at h
    cases result with
    | ok a => exact ⟨a, q, rfl, h⟩
    | error e => cases h

theorem Gives.bind {step : Compile α} {pass : StateM NameSupply α} {next : α → Compile β}
    {rest : α → StateM NameSupply β} (hstep : Gives step pass)
    (hnext : ∀ a, Gives (next a) (rest a)) : Gives (step >>= next) (pass >>= rest) := by
  intro p r b h
  rcases run_bind_eq_ok h with ⟨a, q, hfirst, hsecond⟩
  have hpass := hstep p q a hfirst
  have hrest := hnext a q r b hsecond
  rw [Tree.run_bind, hpass]
  exact hrest

/-- The result of a successful run from a supply of names. -/
theorem Gives.of_runFrom {step : Compile α} {pass : StateM NameSupply α} (h : Gives step pass)
    {names : NameSupply} {a : α} {p : Progress} (hrun : step.runFrom names = (.ok a, p)) :
    a = (pass.run names).1 ∧ p.names = (pass.run names).2 := by
  have hpass := h ⟨names, []⟩ p a hrun
  rw [hpass]
  exact ⟨rfl, rfl⟩

/-- A run from the start is one from the supply that has handed out nothing. -/
theorem runFrom_of_runFresh {step : Compile α} {a : α} {warnings : List Warning}
    (h : step.runFresh = (.ok a, warnings)) : ∃ p, step.runFrom .empty = (.ok a, p) := by
  unfold runFresh at h
  cases hstep : step.runFrom .empty with
  | mk result p =>
    rw [hstep] at h
    cases h
    exact ⟨p, rfl⟩

end Compile

/-! ## Giving names to operands -/

/-- The predicate of a bound comparison, its placeholder removed. -/
def Predicate.unbind (p : Predicate Bound) : Predicate Param :=
  match p.test with
  | .null negated => ⟨p.field, .null negated⟩
  | .relates relation operand => ⟨p.field, .relates relation operand.value⟩

/-- The placeholder of a bound predicate. -/
def Predicate.placeholder? (p : Predicate Bound) : Option String :=
  p.binding?.map Prod.fst

/-- Give a well-formed comparison a name, leave out any other. -/
def Comparison.bindChecked (c : Comparison) : StateM NameSupply (Option (Predicate Bound)) :=
  match c.check? with
  | some p => fun names => (some (p.bind names).1, (p.bind names).2)
  | none => pure none

/-- The well-formed comparisons of a where object with their names. -/
def Where.bind (w : Where) : StateM NameSupply (Tree (Predicate Bound)) :=
  Tree.filterMapM Comparison.bindChecked w

/-- Binding only adds a placeholder. -/
theorem Predicate.unbind_bind (p : Predicate Param) (names : NameSupply) :
    (p.bind names).1.unbind = p := by
  rcases p with ⟨field, test⟩
  cases test <;> rfl

/-- Placeholders do not change the field. -/
theorem Predicate.field_unbind (p : Predicate Bound) : p.unbind.field = p.field := by
  rcases p with ⟨field, test⟩
  cases test <;> rfl

/-- The names of bindings are the placeholders. -/
theorem Predicate.map_fst_filterMap_binding? (ps : List (Predicate Bound)) :
    (ps.filterMap binding?).map Prod.fst = ps.filterMap placeholder? := by
  rw [List.map_filterMap]
  rfl

/-- Binding hands out a name if there is an operand. -/
theorem Predicate.handsOut_bind (p : Predicate Param) (names : NameSupply) :
    names.HandsOut (p.bind names).1.placeholder?.toList (p.bind names).2 := by
  rcases p with ⟨field, test⟩
  cases test with
  | null negated => exact NameSupply.HandsOut.refl names
  | relates relation value => exact NameSupply.handsOut_next names field

namespace Comparison

/-- Compiling a comparison, where it is not refused, gives it a name or nothing. -/
theorem gives_bind? (strict : Bool) (c : Comparison) :
    Compile.Gives (c.bind? strict) c.bindChecked := by
  unfold bind? bindChecked check?
  cases c.check with
  | ok p => exact (Compile.gives_withNames p.bind).bind fun b => Compile.gives_pure (some b)
  | error e => exact Compile.gives_reject strict e _

theorem map_unbind_bindChecked (c : Comparison) (names : NameSupply) :
    (c.bindChecked.run names).1.map Predicate.unbind = c.check? := by
  unfold bindChecked
  cases c.check? with
  | none => rfl
  | some p => exact congrArg some (p.unbind_bind names)

theorem handsOut_bindChecked (c : Comparison) (names : NameSupply) :
    names.HandsOut (((c.bindChecked.run names).1.toList).filterMap Predicate.placeholder?)
      (c.bindChecked.run names).2 := by
  unfold bindChecked
  cases c.check? with
  | none => exact NameSupply.HandsOut.refl names
  | some p =>
    have hbind := p.handsOut_bind names
    have hlist : [(p.bind names).1].filterMap Predicate.placeholder? =
        (p.bind names).1.placeholder?.toList := by
      cases hname : (p.bind names).1.placeholder? <;> simp [hname]
    rw [← hlist] at hbind
    exact hbind

/-- A row of comparisons gets a row of new names. -/
theorem handsOut_filterMapM (cs : List Comparison) (names : NameSupply) :
    names.HandsOut (((cs.filterMapM bindChecked).run names).1.filterMap Predicate.placeholder?)
      ((cs.filterMapM bindChecked).run names).2 := by
  induction cs generalizing names with
  | nil => exact NameSupply.HandsOut.refl names
  | cons c cs ih =>
    have hfirst := c.handsOut_bindChecked names
    have hrest := ih (c.bindChecked.run names).2
    have hboth := hfirst.trans hrest
    rw [List.filterMapM_cons, Tree.run_bind]
    cases hbound : (c.bindChecked.run names).1 with
    | none =>
      rw [hbound] at hboth
      exact hboth
    | some p =>
      rw [hbound, ← List.filterMap_append] at hboth
      exact hboth

end Comparison

/-! ## Where objects -/

/-- Two rows of which one is what is left of the other correspond item by item. -/
theorem forall₂_of_map_eq_filterMap {α β γ : Type} {f : α → γ} {g : β → Option γ} {as : List α}
    {bs : List β} (h : as.map f = bs.filterMap g) :
    List.Forall₂ (fun a b => g b = some (f a)) as (bs.filter fun b => (g b).isSome) := by
  induction bs generalizing as with
  | nil =>
    rw [List.filterMap_nil, List.map_eq_nil_iff] at h
    rw [h]
    exact List.Forall₂.nil
  | cons b bs ih =>
    cases hb : g b with
    | none =>
      rw [List.filterMap_cons_none hb] at h
      rw [List.filter_cons_of_neg (by simp [hb])]
      exact ih h
    | some c =>
      rw [List.filterMap_cons_some hb] at h
      rcases List.map_eq_cons_iff.mp h with ⟨a, as, rfl, hc, hrest⟩
      rw [List.filter_cons_of_pos (by simp [hb])]
      exact List.Forall₂.cons (by rw [hb, hc]) (ih hrest)

/-- Predicates that are left of a row of comparisons are those of the well-formed ones. -/
theorem Comparison.forall₂_checked {ps : List (Predicate Bound)} {cs : List Comparison}
    (h : ps.map Predicate.unbind = cs.filterMap check?) :
    List.Forall₂ (fun p c => c.check? = some p.unbind) ps (cs.filter isWellFormed) := by
  have hfilter : cs.filter isWellFormed = cs.filter fun c => c.check?.isSome := by
    congr 1
    funext c
    rw [c.isSome_check?]
  rw [hfilter]
  exact forall₂_of_map_eq_filterMap h

namespace Where

/-- Compiling a where object, where it succeeds, gives names to its well-formed
comparisons and renders them. -/
theorem gives_compile (node : String) (strict : Bool) (w : Where) :
    Compile.Gives (w.compile node strict) do
      let t ← w.bind
      return Tree.clause node t := by
  have hpass : Compile.Gives (Tree.filterMapM (Comparison.bind? strict) w) w.bind :=
    Tree.filterMapM_lift Compile.Gives Compile.gives_pure Compile.Gives.bind
      (Comparison.gives_bind? strict) w
  exact hpass.bind fun t => Compile.gives_pure _

/-- The names handed out for a where object are new and all different. -/
theorem handsOut_bind (w : Where) (names : NameSupply) :
    names.HandsOut ((Tree.leaves (w.bind.run names).1).filterMap Predicate.placeholder?)
      (w.bind.run names).2 := by
  have hleaves := congrArg (fun pass => StateT.run pass names)
    (Tree.leaves_filterMapM Comparison.bindChecked w)
  have hrow := Comparison.handsOut_filterMapM (Tree.leaves w) names
  have hfirst : Tree.leaves (w.bind.run names).1 =
      (((Tree.leaves w).filterMapM Comparison.bindChecked).run names).1 := congrArg Prod.fst hleaves
  have hsecond : (w.bind.run names).2 =
      (((Tree.leaves w).filterMapM Comparison.bindChecked).run names).2 := congrArg Prod.snd hleaves
  rw [hfirst, hsecond]
  exact hrow

/-- The names aside, what is left are the well-formed comparisons in their places. -/
theorem map_unbind_bind (w : Where) (names : NameSupply) :
    Tree.map Predicate.unbind (w.bind.run names).1 = Tree.filterMap Comparison.check? w :=
  Tree.map_run_filterMapM Comparison.map_unbind_bindChecked w names

/-- Giving names does not repeat a group. -/
theorem single_bind {w : Where} (h : Tree.SingleGroups w) (names : NameSupply) :
    Tree.SingleGroups (w.bind.run names).1 := by
  have hleft : Tree.SingleGroups (Tree.filterMap Comparison.check? w) := h.filterMap _
  rw [← w.map_unbind_bind names] at hleft
  exact hleft.of_filterMap

/-- The comparisons that were given names are the well-formed ones, in text order. -/
theorem forall₂_bind (w : Where) (names : NameSupply) :
    List.Forall₂ (fun p c => c.check? = some p.unbind) (Tree.textLeaves (w.bind.run names).1)
      ((Tree.textLeaves w).filter Comparison.isWellFormed) := by
  refine Comparison.forall₂_checked ?_
  rw [← Tree.textLeaves_map, w.map_unbind_bind, Tree.textLeaves_filterMap]

/-- They are so in input order as well. -/
theorem forall₂_leaves_bind (w : Where) (names : NameSupply) :
    List.Forall₂ (fun p c => c.check? = some p.unbind) (Tree.leaves (w.bind.run names).1)
      ((Tree.leaves w).filter Comparison.isWellFormed) := by
  refine Comparison.forall₂_checked ?_
  rw [← Tree.leaves_map, w.map_unbind_bind, Tree.leaves_filterMap]

/-- The names under which the operands are bound are all different. -/
theorem nodup_names_bind (w : Where) (names : NameSupply) :
    (((Tree.leaves (w.bind.run names).1).filterMap Predicate.binding?).map Prod.fst).Nodup := by
  rw [Predicate.map_fst_filterMap_binding?]
  exact (w.handsOut_bind names).nodup

end Where

end GraphFilter
