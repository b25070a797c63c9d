import GraphFilter.Proofs.Where.Drawn

/-!
# Sessions on one supply of names

A supply of names may serve any number of operations.  Names are asked for one by one,
comparisons and where objects are compiled, and some of this is refused after names were
handed out for it.  No name comes twice, whatever the order and whatever the fields.

Main results:

- Theorem {lit}`Operation.run_eq`: an operation hands out a name for each field that it needs
  one for, and gives these names.
- Theorem {lit}`Session.run_eq`: so does a session, for all of its operations in a row.
- Theorem {lit}`Session.distinct_names`: all names of a session are different, and the
  parameters of all of its clauses can be joined.
-/

namespace GraphFilter

/-! ## Operations -/

/-- What a supply of names is used for. -/
inductive Operation where
  | next (field : String)
  | compare (node : String) (c : Comparison)
  | compile (node : String) (strict : Bool) (w : Where)

/-- What an operation gives. -/
inductive Answer where
  | name (name : String)
  | clause (clause : Clause)
  | refused (error : FilterError)

namespace Answer

/-- The clause or the refusal that a step ends with. -/
def ofResult : Except FilterError Clause → Answer
  | .ok c => clause c
  | .error e => refused e

/-- The parameters that come with an answer. -/
def params : Answer → Bindings
  | clause c => c.params
  | _ => .empty

/-- An answer gives the names that were handed out for it.  A refusal keeps them back. -/
def Gives : Answer → List String → Prop
  | name n, names => names = [n]
  | clause c, names => c.params.names.Perm names
  | refused _, _ => True

theorem Gives.params_subperm {a : Answer} {names : List String} (h : a.Gives names) :
    a.params.names.Subperm names := by
  cases a with
  | name n => exact List.nil_subperm
  | clause c => exact List.Perm.subperm h
  | refused e => exact List.nil_subperm

end Answer

namespace Operation

/-- Carry out an operation. -/
def run (names : NameSupply) : Operation → Answer × NameSupply
  | next field =>
    let (name, names) := names.next field
    (.name name, names)
  | compare node c =>
    let (result, progress) := (c.compile node).runFrom names
    (.ofResult result, progress.names)
  | compile node strict w =>
    let (result, progress) := (w.compile node strict).runFrom names
    (.ofResult result, progress.names)

/-- The fields for which an operation needs names. -/
def drawn : Operation → List String
  | next field => [field]
  | compare _ c => Comparison.drawn true [c]
  | compile _ strict w => Comparison.drawn strict (Tree.leaves w)

/-- An operation hands out a name for each field that it needs one for, and gives these
names. -/
theorem run_eq (op : Operation) (s : NameSupply) :
    (op.run s).2 = (s.nextAll op.drawn).2 ∧ (op.run s).1.Gives (s.nextAll op.drawn).1 := by
  cases op with
  | next field => exact ⟨rfl, rfl⟩
  | compare node c =>
    cases hrun : (c.compile node).runFrom s with
    | mk result progress =>
      have hstate := ((c.draws_compile node).of_runFrom hrun).1
      rw [run, hrun]
      cases result with
      | ok clause => exact ⟨hstate, List.Perm.of_eq (Comparison.names_compile hrun)⟩
      | error e => exact ⟨hstate, trivial⟩
  | compile node strict w =>
    cases hrun : (w.compile node strict).runFrom s with
    | mk result progress =>
      have hstate := ((w.draws_compile node strict).of_runFrom hrun).1
      rw [run, hrun]
      cases result with
      | ok clause => exact ⟨hstate, Where.names_compile hrun⟩
      | error e => exact ⟨hstate, trivial⟩

end Operation

/-! ## Sessions -/

/-- Operations that are carried out one after the other. -/
abbrev Session := List Operation

namespace Session

/-- Carry out the operations of a session. -/
def run (names : NameSupply) : List Operation → List Answer × NameSupply
  | [] => ([], names)
  | op :: rest =>
    let (answer, names) := op.run names
    let (answers, names) := run names rest
    (answer :: answers, names)

/-- A session hands out names for the fields of its operations in a row, and each operation
gives its own part of them. -/
theorem run_eq (ops : Session) (s : NameSupply) :
    (run s ops).2 = (s.nextAll (ops.flatMap Operation.drawn)).2 ∧
      ∃ handed : List (List String),
        handed.flatten = (s.nextAll (ops.flatMap Operation.drawn)).1 ∧
          List.Forall₂ Answer.Gives (run s ops).1 handed := by
  induction ops generalizing s with
  | nil => exact ⟨rfl, [], rfl, List.Forall₂.nil⟩
  | cons op rest ih =>
    rcases op.run_eq s with ⟨hstate, hgives⟩
    rcases ih (op.run s).2 with ⟨hrest, handed, hflat, hall⟩
    rw [hstate] at hrest hflat
    rw [List.flatMap_cons, NameSupply.nextAll_append]
    refine ⟨?_, (s.nextAll op.drawn).1 :: handed, ?_, ?_⟩
    · rw [← hrest, ← hstate]
      rfl
    · rw [List.flatten_cons, hflat]
    · exact List.Forall₂.cons hgives hall

/-- The parameters of a session have names that were handed out in it. -/
theorem params_subperm {answers : List Answer} {handed : List (List String)}
    (h : List.Forall₂ Answer.Gives answers handed) :
    ((answers.map Answer.params).flatMap Bindings.names).Subperm handed.flatten := by
  induction h with
  | nil => exact List.Subperm.refl _
  | cons hgives _ ih =>
    rw [List.map_cons, List.flatMap_cons, List.flatten_cons]
    exact hgives.params_subperm.append ih

/-- All names of a session are different: those that were asked for, those of parameters and
those that were handed out before a refusal.  So no two clauses have a parameter of the same
name, and joining the parameters of all clauses loses none.  No number that was reached is
greater than the number of names. -/
theorem distinct_names (ops : Session) :
    ∃ handed : List (List String),
      (run .empty ops).2.issued = handed.flatten.reverse ∧
        handed.flatten.Nodup ∧
        List.Forall₂ Answer.Gives (run .empty ops).1 handed ∧
        ((run .empty ops).1.map Answer.params).Pairwise (fun a b => a.names.Disjoint b.names) ∧
        (((run .empty ops).1.map Answer.params).foldl Bindings.union .empty).entries.Perm
          (((run .empty ops).1.map Answer.params).flatMap Bindings.entries) ∧
        ∀ field, (run .empty ops).2.count field ≤ (run .empty ops).2.issued.length := by
  rcases run_eq ops .empty with ⟨hstate, handed, hflat, hgives⟩
  have hhands := NameSupply.empty.handsOut_nextAll (ops.flatMap Operation.drawn)
  rw [← hstate, ← hflat] at hhands
  have hparams : (((run .empty ops).1.map Answer.params).flatMap Bindings.names).Nodup := by
    rcases params_subperm hgives with ⟨names, hperm, hsublist⟩
    exact hperm.nodup_iff.mp (hhands.nodup.sublist hsublist)
  refine ⟨handed, ?_, hhands.nodup, hgives, ?_, ?_, ?_⟩
  · rw [hhands.issued]
    exact List.append_nil _
  · exact (List.nodup_flatMap.mp hparams).2
  · exact Bindings.foldl_union_perm .empty hparams
  · rw [hstate]
    exact (NameSupply.counted_empty.nextAll _).count_le

/-- Fields that are written alike in names share their numbers. -/
example : (run .empty [.next "address.city", .next "address_city", .next "", .next "param"]).1 =
    [.name "address_city1", .name "address_city2", .name "param1", .name "param2"] := by
  rfl

end Session

end GraphFilter
