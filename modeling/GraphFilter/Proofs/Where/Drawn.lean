import GraphFilter.Proofs.Param.Distinct
import GraphFilter.Proofs.Placeholder.Calls
import GraphFilter.Proofs.Where.Malformed

/-!
# Names that compiling draws from a supply

Compiling leaves a supply of names as if a name had been handed out for the field of each
comparison that needs one, in input order.  A refusal ends this at the first malformed
comparison, and the names that were handed out up to there stay used.

Main results:

- Theorem {lit}`Where.draws_compile`: the fields for which a where object draws names.
- Theorem {lit}`Where.names_compile`: the parameters of a where object have these names.
-/

namespace GraphFilter

/-! ## Comparisons that need a name -/

namespace Comparison

/-- The field for which a comparison needs a name, if it is well-formed and has an operand. -/
def drawn? (c : Comparison) : Option String :=
  if c.isWellFormed && c.operand?.isSome then some c.field else none

/-- Whether comparisons in a row are not refused. -/
def accepted (strict : Bool) (cs : List Comparison) : Bool :=
  !strict || cs.all isWellFormed

/-- The fields for which comparisons in a row need names; refusing one ends the row. -/
def drawn (strict : Bool) (cs : List Comparison) : List String :=
  (if strict then cs.takeWhile isWellFormed else cs).filterMap drawn?

theorem accepted_append (strict : Bool) (cs ds : List Comparison) :
    accepted strict (cs ++ ds) = (accepted strict cs && accepted strict ds) := by
  cases strict <;> simp [accepted]

/-- Behind a refusal no names are needed. -/
theorem drawn_append (strict : Bool) (cs ds : List Comparison) :
    drawn strict (cs ++ ds) =
      drawn strict cs ++ if accepted strict cs then drawn strict ds else [] := by
  cases strict with
  | false => simp [drawn, accepted]
  | true =>
    induction cs with
    | nil => simp [drawn, accepted]
    | cons c cs ih =>
      cases hwell : c.isWellFormed with
      | false => simp [drawn, accepted, hwell]
      | true =>
        simp only [drawn, accepted] at ih ⊢
        cases hfield : c.drawn? <;> simpa [hwell, hfield] using ih

theorem accepted_singleton (strict : Bool) (c : Comparison) :
    accepted strict [c] = (!strict || c.isWellFormed) := by
  simp [accepted]

theorem drawn_singleton (strict : Bool) (c : Comparison) :
    drawn strict [c] = c.drawn?.toList := by
  cases hwell : c.isWellFormed with
  | false =>
    have hnone : c.drawn? = none := by simp [drawn?, hwell]
    cases strict <;> simp [drawn, hwell, hnone]
  | true => cases strict <;> cases hfield : c.drawn? <;> simp [drawn, hwell, hfield]

theorem isWellFormed_of_check {c : Comparison} {p : Predicate Param} (h : c.check = .ok p) :
    c.isWellFormed = true := by
  rw [← c.isSome_check?, check?, h]
  rfl

theorem not_isWellFormed_of_check {c : Comparison} {error : FilterError}
    (h : c.check = .error error) : c.isWellFormed = false := by
  rw [← c.isSome_check?, check?, h]
  rfl

/-- Binding a well-formed comparison draws a name if there is an operand. -/
theorem names_bind_of_check {c : Comparison} {p : Predicate Param} (h : c.check = .ok p)
    (names : NameSupply) : (p.bind names).2 = (names.nextAll c.drawn?.toList).2 := by
  have hwell := isWellFormed_of_check h
  have hcheck : c.check? = some p := by
    rw [check?, h]
    rfl
  rcases accepts_of_check? hcheck with ⟨hfield, htest⟩
  rcases p with ⟨field, test⟩
  cases test with
  | null negated =>
    have hnone : c.drawn? = none := by simp [drawn?, htest.1]
    rw [hnone]
    rfl
  | relates relation value =>
    rcases htest with ⟨v, hoperand, -⟩
    have hsome : c.drawn? = some c.field := by simp [drawn?, hwell, hoperand]
    rw [hsome, ← hfield]
    rfl

end Comparison

/-! ## Compiling steps -/

namespace Compile

open Comparison (drawn accepted)

variable {α β : Type} {strict : Bool}

/-- A step that works through comparisons in a row: it fails if one of them is refused, and
leaves the supply as after handing out the names they need. -/
def Draws (strict : Bool) (step : Compile α) (cs : List Comparison) : Prop :=
  ∀ p : Progress, (step.run.run p).2.names = (p.names.nextAll (drawn strict cs)).2 ∧
    (step.run.run p).1.isOk = accepted strict cs

theorem draws_pure (a : α) : Draws strict (pure a) [] := by
  intro p
  cases strict <;> exact ⟨rfl, rfl⟩

/-- Steps in a row work through their comparisons in a row. -/
theorem Draws.bind {step : Compile α} {next : α → Compile β} {cs ds : List Comparison}
    (hstep : Draws strict step cs) (hnext : ∀ a, Draws strict (next a) ds) :
    Draws strict (step >>= next) (cs ++ ds) := by
  intro p
  rcases hstep p with ⟨hnames, hok⟩
  rw [Comparison.drawn_append, Comparison.accepted_append, NameSupply.nextAll_append, ← hok,
    ← hnames]
  cases hrun : step.run.run p with
  | mk result q =>
    cases result with
    | ok a =>
      rw [run_bind_of_ok hrun]
      exact hnext a q
    | error e =>
      rw [run_bind_of_error hrun]
      exact ⟨rfl, rfl⟩

/-- A last step that only arranges the result. -/
theorem Draws.map {step : Compile α} {cs : List Comparison} (h : Draws strict step cs) (f : α → β) :
    Draws strict (step >>= fun a => pure (f a)) cs := by
  have hboth := h.bind fun a => draws_pure (f a)
  rwa [List.append_nil] at hboth

/-- A run from a supply of names. -/
theorem Draws.of_runFrom {step : Compile α} {cs : List Comparison} (h : Draws strict step cs)
    {s : NameSupply} {result : Except FilterError α} {q : Progress}
    (hrun : step.runFrom s = (result, q)) :
    q.names = (s.nextAll (drawn strict cs)).2 ∧ result.isOk = accepted strict cs := by
  have hstep := h ⟨s, []⟩
  rw [runFrom] at hrun
  rw [hrun] at hstep
  exact hstep

/-- The names that a run handed out are those that its comparisons needed. -/
theorem Draws.names_eq {step : Compile α} {cs : List Comparison} (h : Draws strict step cs)
    {s : NameSupply} {result : Except FilterError α} {q : Progress} {names : List String}
    (hrun : step.runFrom s = (result, q)) (hhands : s.HandsOut names q.names) :
    names = (s.nextAll (drawn strict cs)).1 := by
  rw [(h.of_runFrom hrun).1] at hhands
  exact hhands.names_eq (s.handsOut_nextAll _)

end Compile

/-! ## Comparisons and where objects -/

namespace Comparison

open Compile (Draws)

/-- A well-formed comparison draws the name that it needs. -/
theorem draws_withNames (strict : Bool) {c : Comparison} {p : Predicate Param}
    (h : c.check = .ok p) : Draws strict (Compile.withNames p.bind) [c] := by
  intro q
  rw [drawn_singleton, accepted_singleton, isWellFormed_of_check h, Bool.or_true]
  exact ⟨names_bind_of_check h q.names, rfl⟩

/-- A malformed comparison draws nothing, whether it is refused or left out. -/
theorem draws_of_error {α : Type} {strict : Bool} {c : Comparison} {error : FilterError}
    (h : c.check = .error error) {step : Compile α}
    (hnames : ∀ p, (step.run.run p).2.names = p.names)
    (hok : ∀ p, (step.run.run p).1.isOk = !strict) : Draws strict step [c] := by
  intro p
  have hwell := not_isWellFormed_of_check h
  have hnone : c.drawn? = none := by simp [drawn?, hwell]
  rw [drawn_singleton, accepted_singleton, hwell, Bool.or_false, hnone]
  exact ⟨hnames p, hok p⟩

theorem draws_bind? (strict : Bool) (c : Comparison) : Draws strict (c.bind? strict) [c] := by
  unfold bind?
  cases hcheck : c.check with
  | ok p => exact (draws_withNames strict hcheck).map some
  | error e =>
    have hmalformed := isMalformed_of_check hcheck
    refine draws_of_error hcheck ?_ ?_ <;> intro p <;> cases strict <;>
      simp only [Compile.reject, hmalformed] <;> rfl

/-- A comparison on its own is refused if it is malformed. -/
theorem draws_compile (node : String) (c : Comparison) : Draws true (c.compile node) [c] := by
  refine Draws.map ?_ (Predicate.clause node)
  unfold bind
  cases hcheck : c.check with
  | ok p => exact draws_withNames true hcheck
  | error e => exact draws_of_error hcheck (fun _ => rfl) (fun _ => rfl)

/-- The parameters of a comparison have the names that it drew. -/
theorem names_compile {node : String} {c : Comparison} {s : NameSupply} {clause : Clause}
    {q : Progress} (h : (c.compile node).runFrom s = (.ok clause, q)) :
    clause.params.names = (s.nextAll (drawn true [c])).1 := by
  rcases Compile.run_bind_eq_ok h with ⟨p, r, hbind, hrest⟩
  cases hrest
  unfold bind at hbind
  cases hcheck : c.check with
  | error e =>
    rw [hcheck] at hbind
    cases hbind
  | ok checked =>
    rw [hcheck] at hbind
    cases hbind
    have hnames : ((checked.bind s).1.clause node).params.names =
        (checked.bind s).1.placeholder?.toList := by
      unfold Predicate.clause Predicate.placeholder?
      cases (checked.bind s).1.binding? <;> rfl
    exact hnames.trans ((c.draws_compile node).names_eq h (checked.handsOut_bind s))

end Comparison

namespace Where

/-- A where object draws names for the fields of its comparisons in input order. -/
theorem draws_compile (node : String) (strict : Bool) (w : Where) :
    Compile.Draws strict (w.compile node strict) (Tree.leaves w) := by
  have htree : Compile.Draws strict (Tree.filterMapM (Comparison.bind? strict) w)
      ((Tree.leaves w).flatMap fun c => [c]) :=
    Tree.filterMapM_lift_reports (n := Id) (fun x _ cs => Compile.Draws strict x cs)
      (fun c => [c]) (g := fun _ => none) Compile.draws_pure Compile.Draws.bind
      (Comparison.draws_bind? strict) w
  rw [List.flatMap_singleton'] at htree
  exact htree.map (Tree.clause node)

/-- The parameters of a where object have the names that it drew. -/
theorem names_compile {node : String} {strict : Bool} {w : Where} {s : NameSupply} {clause : Clause}
    {q : Progress} (h : (w.compile node strict).runFrom s = (.ok clause, q)) :
    clause.params.names.Perm (s.nextAll (Comparison.drawn strict (Tree.leaves w))).1 := by
  rcases (w.gives_compile node strict).of_runFrom h with ⟨hclause, hleft⟩
  have hnames : q.names = (w.bind.run s).2 := hleft
  have hhands := w.handsOut_bind s
  rw [← hnames] at hhands
  rw [← (w.draws_compile node strict).names_eq h hhands, hclause,
    ← Predicate.map_fst_filterMap_binding?]
  exact (Bindings.ofList_perm (w.nodup_names_bind s)).map Prod.fst

end Where

end GraphFilter
