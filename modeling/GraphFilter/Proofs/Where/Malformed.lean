import GraphFilter.Proofs.Where.Binding

/-!
# Malformed parts, left out or refused

Compiling has two modes.  One leaves malformed parts out with a warning and never
fails; the other ends at the first malformed part.  They are compared step by step: as
long as nothing malformed is met, both do the same.

Main results:

- Theorem {lit}`Compile.Agree.bind`: steps in a row agree, and their warnings add up.
- Theorem {lit}`Comparison.forall₂_warning?`: there is one warning for each malformed
  comparison.
- Theorem {lit}`Where.agree_compile`: the two modes agree on where objects, with the
  warnings in input order.
-/

namespace GraphFilter

/-! ## The two modes of a step -/

namespace Compile

variable {α β : Type}

/-- A step in its two modes, with the warnings about the malformed parts in it.  The
lenient step ends with all of them.  The strict step ends the same way if there are
none, and otherwise with the error of the first one; it never warns. -/
def Agree (lenient strict : Compile α) (warnings : List Warning) : Prop :=
  ∀ p : Progress, ∃ a names,
    lenient.run.run p = (.ok a, ⟨names, p.warnings ++ warnings⟩) ∧
      match warnings with
      | [] => strict.run.run p = (.ok a, ⟨names, p.warnings⟩)
      | first :: _ => ∃ error left, first.error? = some error ∧
          strict.run.run p = (.error error, ⟨left, p.warnings⟩)

theorem agree_pure (a : α) : Agree (pure a) (pure a) [] := by
  intro p
  refine ⟨a, p.names, ?_, rfl⟩
  rw [List.append_nil]
  rfl

theorem agree_withNames (f : NameSupply → α × NameSupply) :
    Agree (withNames f) (withNames f) [] := by
  intro p
  refine ⟨(f p.names).1, (f p.names).2, ?_, rfl⟩
  rw [List.append_nil]
  rfl

/-- A malformed part gives its warning in one mode and its error in the other. -/
theorem agree_reject {error : FilterError} {warning : Warning} (herror : error.isMalformed = true)
    (hwarning : warning.error? = some error) :
    Agree (reject (α := α) false error warning) (reject true error warning) [warning] := by
  intro p
  refine ⟨none, p.names, ?_, error, p.names, hwarning, rfl⟩
  rw [reject, herror]
  rfl

/-- A step behind one that ended well. -/
theorem run_bind_of_ok {step : Compile α} {next : α → Compile β} {p q : Progress} {a : α}
    (h : step.run.run p = (.ok a, q)) : (step >>= next).run.run p = (next a).run.run q := by
  rw [ExceptT.run_bind, StateT.run_bind, h]
  rfl

/-- A step behind one that ended with an error. -/
theorem run_bind_of_error {step : Compile α} {next : α → Compile β} {p q : Progress}
    {error : FilterError} (h : step.run.run p = (.error error, q)) :
    (step >>= next).run.run p = (.error error, q) := by
  rw [ExceptT.run_bind, StateT.run_bind, h]
  rfl

/-- Steps in a row agree, and their warnings add up. -/
theorem Agree.bind {lenient strict : Compile α} {next next' : α → Compile β}
    {warnings others : List Warning} (hstep : Agree lenient strict warnings)
    (hnext : ∀ a, Agree (next a) (next' a) others) :
    Agree (lenient >>= next) (strict >>= next') (warnings ++ others) := by
  intro p
  rcases hstep p with ⟨a, names, hlenient, hstrict⟩
  rcases hnext a ⟨names, p.warnings ++ warnings⟩ with ⟨b, names', hlenient', -⟩
  have hboth : (lenient >>= next).run.run p =
      (.ok b, ⟨names', p.warnings ++ (warnings ++ others)⟩) := by
    rw [run_bind_of_ok hlenient, hlenient', List.append_assoc]
  cases warnings with
  | nil =>
    -- nothing malformed so far: the strict run gets to the second step as well
    rcases hnext a ⟨names, p.warnings⟩ with ⟨b', names'', hlenient'', hstrict'⟩
    rw [List.append_nil] at hlenient'
    rw [hlenient'] at hlenient''
    cases hlenient''
    refine ⟨b, names', hboth, ?_⟩
    rw [List.nil_append, run_bind_of_ok hstrict]
    exact hstrict'
  | cons first rest =>
    rcases hstrict with ⟨error, left, herror, hstrict⟩
    exact ⟨b, names', hboth, error, left, herror, run_bind_of_error hstrict⟩

/-- A last step that only arranges the result. -/
theorem Agree.map {lenient strict : Compile α} {warnings : List Warning}
    (h : Agree lenient strict warnings) (f : α → β) :
    Agree (lenient >>= fun a => pure (f a)) (strict >>= fun a => pure (f a)) warnings := by
  have hboth := h.bind fun a => agree_pure (f a)
  rwa [List.append_nil] at hboth

/-- The two modes of a run from the start. -/
theorem Agree.runFresh {lenient strict : Compile α} {warnings : List Warning}
    (h : Agree lenient strict warnings) :
    ∃ a, lenient.runFresh = (.ok a, warnings) ∧
      (warnings = [] → strict.runFresh = (.ok a, [])) ∧
        ∀ first ∈ warnings.head?, ∃ error, first.error? = some error ∧
          strict.runFresh = (.error error, []) := by
  rcases h ⟨.empty, []⟩ with ⟨a, names, hlenient, hstrict⟩
  refine ⟨a, ?_, ?_⟩
  · rw [Compile.runFresh, runFrom, hlenient]
    rfl
  · cases warnings with
    | nil =>
      refine ⟨?_, by simp⟩
      intro _
      rw [Compile.runFresh, runFrom, hstrict]
    | cons first rest =>
      refine ⟨by simp, ?_⟩
      intro other hother
      cases hother
      rcases hstrict with ⟨error, left, herror, hstrict⟩
      refine ⟨error, herror, ?_⟩
      rw [Compile.runFresh, runFrom, hstrict]

end Compile

/-! ## Comparisons -/

/-- A warning about a comparison names its field and its operator, and gives the error
that checking it ends with. -/
def Warning.Reports (warning : Warning) (c : Comparison) : Prop :=
  ∃ error, c.check = .error error ∧ warning = .droppedCondition c.field c.operator.name error

namespace Comparison

/-- The warning about a comparison, if it is malformed. -/
def warning? (c : Comparison) : Option Warning :=
  match c.check with
  | .ok _ => none
  | .error error => some (.droppedCondition c.field c.operator.name error)

/-- A conversion that fails is the fault of the operand. -/
theorem isMalformed_of_convert {field operator : String} {kind : OperandKind} {v : Json.Value}
    {error : FilterError} (h : convert field operator kind v = .error error) :
    error.isMalformed = true := by
  unfold convert at h
  split at h
  · cases h
    rfl
  · cases h
    rfl
  · cases h
  · split at h
    · cases h
    · cases h
      rfl
  · cases h
  · cases h
    rfl

/-- Whatever is wrong with a comparison, it can be left out. -/
theorem isMalformed_of_check {c : Comparison} {error : FilterError} (h : c.check = .error error) :
    error.isMalformed = true := by
  unfold check at h
  cases hrelation : relation? c.operator with
  | none =>
    rw [hrelation] at h
    cases h
    rfl
  | some entry =>
    rcases entry with ⟨relation, kind⟩
    rw [hrelation] at h
    cases hoperand : c.operand? with
    | none =>
      rw [hoperand] at h
      cases relation <;> cases h <;> rfl
    | some v =>
      rw [hoperand] at h
      cases hconvert : convert c.field c.operator.name kind v with
      | ok value => simp [hconvert, Except.map] at h
      | error fault =>
        simp only [hconvert, Except.map, Except.error.injEq] at h
        exact h ▸ isMalformed_of_convert hconvert

theorem isSome_warning? (c : Comparison) : c.warning?.isSome = !c.isWellFormed := by
  rw [← c.isSome_check?, check?, warning?]
  cases c.check <;> rfl

theorem reports_of_warning? {c : Comparison} {warning : Warning} (h : c.warning? = some warning) :
    warning.Reports c := by
  unfold warning? at h
  cases hcheck : c.check with
  | ok p =>
    rw [hcheck] at h
    cases h
  | error error =>
    rw [hcheck] at h
    cases h
    exact ⟨error, hcheck, rfl⟩

/-- There is one warning for each malformed comparison, in the same order. -/
theorem forall₂_warning? (cs : List Comparison) :
    List.Forall₂ Warning.Reports (cs.filterMap warning?) (cs.filter fun c => !c.isWellFormed) := by
  have hall := forall₂_of_map_eq_filterMap (List.map_id (cs.filterMap warning?))
  simp only [isSome_warning?] at hall
  exact hall.imp fun _ _ h => reports_of_warning? h

theorem agree_bind? (c : Comparison) :
    Compile.Agree (c.bind? false) (c.bind? true) c.warning?.toList := by
  unfold bind? warning?
  cases hcheck : c.check with
  | ok p => exact (Compile.agree_withNames p.bind).map some
  | error e => exact Compile.agree_reject (isMalformed_of_check hcheck) rfl

end Comparison

/-! ## Where objects -/

namespace Where

/-- The warnings about the malformed comparisons of a where object, in input order. -/
def warnings (w : Where) : List Warning :=
  (Tree.leaves w).filterMap Comparison.warning?

/-- The two modes agree on where objects. -/
theorem agree_compile (node : String) (w : Where) :
    Compile.Agree (w.compile node false) (w.compile node true) w.warnings := by
  have htree : Compile.Agree (Tree.filterMapM (Comparison.bind? false) w)
      (Tree.filterMapM (Comparison.bind? true) w)
      ((Tree.leaves w).flatMap fun c => c.warning?.toList) :=
    Tree.filterMapM_lift_reports Compile.Agree (fun c => c.warning?.toList) Compile.agree_pure
      Compile.Agree.bind Comparison.agree_bind? w
  rw [← List.filterMap_eq_flatMap_toList] at htree
  exact htree.map (Tree.clause node)

end Where

end GraphFilter
