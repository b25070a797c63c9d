import GraphFilter.Proofs.Cypher.Condition
import GraphFilter.Proofs.Param.Distinct

/-!
# The predicates of a where text

Reading the text of a where object from left to right gives its well-formed
comparisons one by one, in text order.  Each is found with its own field, its own
symbol and, through its placeholder, its own operand, although the placeholders were
numbered in another order and the parameters of all comparisons share one table.

Main results:

- Theorem {lit}`Row.flatten_value`: grouping neither drops nor moves an operand.
- Theorem {lit}`Where.atoms_compile`: the predicates of a where text show the
  well-formed comparisons of the where object.
-/

namespace GraphFilter

open Cypher (Atom Expr)

/-! ## Grouping keeps the atoms -/

/-- Grouping by concatenation gives the operands in their order. -/
theorem Row.flatten_value {α : Type} (row : Row (List α)) :
    (Row.value (fun _ a b => a ++ b) row).getD [] = row.flatMap Prod.snd := by
  have hpush (r : Reading (List α)) (item : Joiner × List α) :
      (r.push (fun _ a b => a ++ b) item).close (fun _ a b => a ++ b) =
        r.close (fun _ a b => a ++ b) ++ item.2 := by
    rcases r with ⟨alternatives, exclusives, conjuncts⟩
    rcases item with ⟨j, b⟩
    cases alternatives <;> cases exclusives <;> cases j <;>
      simp [Reading.push, Reading.close, Reading.closeExclusives, Reading.behind]
  have hpushAll (r : Reading (List α)) (rest : Row (List α)) :
      (r.pushAll (fun _ a b => a ++ b) rest).close (fun _ a b => a ++ b) =
        r.close (fun _ a b => a ++ b) ++ rest.flatMap Prod.snd := by
    induction rest generalizing r with
    | nil => simp
    | cons item rest ih => rw [Reading.pushAll_cons, ih, hpush, List.flatMap_cons, List.append_assoc]
  cases row with
  | nil => rfl
  | cons item rest =>
    rw [Row.value, Option.getD_some, hpushAll]
    rfl

/-- The operands of a chain, one by one, are its atoms. -/
theorem Chain.flatten_row {α β : Type} (f : α → β) (c : Chain α) :
    (row (fun _ a b => a ++ b) (fun a => [f a]) c).flatMap Prod.snd = (atoms c).map f := by
  induction c using induction with
  | nil => rfl
  | atom j a rest ih => simp [row, termRow, atoms, termAtoms, ih]
  | paren j terms rest ihterms ihrest =>
    have hwrap : (Row.wrap (fun _ a b => a ++ b) j
        (row (fun _ a b => a ++ b) (fun a => [f a]) terms)).flatMap Prod.snd =
          (atoms terms).map f := by
      have hvalue := Row.flatten_value (row (fun _ a b => a ++ b) (fun a => [f a]) terms)
      rw [ihterms] at hvalue
      rw [Row.wrap, ← hvalue]
      cases Row.value (fun _ a b => a ++ b) (row (fun _ a b => a ++ b) (fun a => [f a]) terms) <;>
        simp
    rw [row, termRow, List.flatMap_append, hwrap, ihrest, atoms, termAtoms, List.map_append]

/-- The atoms of the expression that a tree is read as are its leaves in text order. -/
theorem Tree.atoms_value {α β : Type} (f : α → β) (t : Tree α) :
    ((Row.value Expr.join (Tree.row Expr.join (fun a => .atom (f a)) t)).map Expr.atoms).getD [] =
      (textLeaves t).map f := by
  have hjoin : ∀ (j : Joiner) (a b : Expr β), (Expr.join j a b).atoms = a.atoms ++ b.atoms :=
    fun _ _ _ => rfl
  rw [Row.map_value hjoin, Tree.row, Chain.map_row Expr.join _ hjoin, ← atoms_toChain,
    ← Chain.flatten_row, ← Row.flatten_value]
  rfl

/-! ## What an atom shows -/

/-- An atom shows a comparison: its field, and either a test for null or the symbol of
its operator, negated where the operator is, and a placeholder with the value of its
operand. -/
def Cypher.Atom.Shows (params : Bindings) (atom : Atom) (c : Comparison) : Prop :=
  match c.operand? with
  | none =>
    (c.operator = .eq ∧ atom = .isNull c.field) ∨ (c.operator = .neq ∧ atom = .isNotNull c.field)
  | some v =>
    ∃ symbol placeholder value, c.operator.symbol? = some symbol ∧
      atom = .compares c.operator.isNegated c.field symbol placeholder ∧
      c.operator.value? v = some value ∧ params.get? placeholder = some value

/-- A predicate whose operand is bound shows the comparison that it was made from. -/
theorem Predicate.shows_atom {params : Bindings} {p : Predicate Bound} {c : Comparison}
    (hparams : ∀ name value, p.binding? = some (name, value) → params.get? name = some value)
    (hcheck : c.check? = some p.unbind) : p.atom.Shows params c := by
  rcases p with ⟨field, test⟩
  have haccepts := Comparison.accepts_of_check? hcheck
  unfold Cypher.Atom.Shows
  cases test with
  | null negated =>
    rcases haccepts with ⟨hfield, hoperand, hoperator⟩
    have hfield' : field = c.field := hfield
    rw [hoperand, ← hfield']
    cases negated with
    | false => exact Or.inl ⟨hoperator, rfl⟩
    | true => exact Or.inr ⟨hoperator, rfl⟩
  | relates relation operand =>
    rcases haccepts with ⟨hfield, v, hoperand, hvalue, hsymbol, hnegated⟩
    have hfield' : field = c.field := hfield
    have hbound : params.get? operand.placeholder = some operand.value := hparams _ _ rfl
    have hatom : (Predicate.mk field (.relates relation operand)).atom =
        .compares c.operator.isNegated c.field relation.symbol operand.placeholder := by
      rw [← hfield', hnegated]
      rfl
    rw [hoperand]
    exact ⟨_, _, _, hsymbol, hatom, hvalue, hbound⟩

/-! ## Where objects -/

namespace Where

/-- Each operand is found under its own placeholder. -/
theorem get?_of_mem_bind {node : String} {w : Where} {names : NameSupply} {p : Predicate Bound}
    (hp : p ∈ Tree.textLeaves (w.bind.run names).1) {name : String} {value : Param}
    (hbinding : p.binding? = some (name, value)) :
    (Tree.clause node (w.bind.run names).1).params.get? name = some value := by
  refine Bindings.get?_ofList (w.nodup_names_bind names) ?_
  exact List.mem_filterMap.mpr ⟨p, (Tree.textLeaves_perm _).mem_iff.mp hp, hbinding⟩

/-- The comparisons that were given names are shown by their predicates. -/
theorem forall₂_shows (node : String) (w : Where) (names : NameSupply) :
    List.Forall₂ (Atom.Shows (Tree.clause node (w.bind.run names).1).params)
      ((Tree.textLeaves (w.bind.run names).1).map Predicate.atom)
      ((Tree.textLeaves w).filter Comparison.isWellFormed) := by
  rw [List.forall₂_map_left_iff]
  have hleaves := w.forall₂_bind names
  rw [List.forall₂_iff_get] at hleaves ⊢
  refine ⟨hleaves.1, ?_⟩
  intro i hi hi'
  refine Predicate.shows_atom ?_ (hleaves.2 i hi hi')
  intro name value hbinding
  exact get?_of_mem_bind (List.get_mem _ _) hbinding

/-- The predicates in the text of a where object, from left to right, show its well-formed
comparisons in text order: none is lost, repeated, moved or given another's operand. -/
theorem atoms_compile {node : String} (halias : Cypher.isPlainName node = true) {strict : Bool}
    {w : Where} {names : NameSupply} {c : Clause} {p : Progress}
    (hrun : (w.compile node strict).runFrom names = (.ok c, p)) :
    ∃ e, Cypher.readCondition node c.text = some e ∧
      List.Forall₂ (Atom.Shows c.params) ((e.map Expr.atoms).getD [])
        ((Tree.textLeaves w).filter Comparison.isWellFormed) := by
  have hc : c = Tree.clause node (w.bind.run names).1 :=
    ((w.gives_compile node strict).of_runFrom hrun).1
  rw [hc]
  refine ⟨_, readCondition_bind halias w names, ?_⟩
  rw [Tree.atoms_value]
  exact forall₂_shows node w names

/-- A comparison of which the operator is unknown is passed over. -/
theorem atoms_compile_lenient :
    ∃ c p, (Where.compile "n" false [.group .or [[.leaf ⟨"a", .unsupported "is", none⟩],
        [.leaf ⟨"b", .nin, some (.array [])⟩]], .leaf ⟨"b", .eq, none⟩]).runFrom .empty =
          (.ok c, p) ∧
      ∃ e, Cypher.readCondition "n" c.text = some e ∧
        List.Forall₂ (Atom.Shows c.params) ((e.map Expr.atoms).getD [])
          [⟨"b", .eq, none⟩, ⟨"b", .nin, some (.array [])⟩] := by
  obtain ⟨c, p, hrun⟩ : ∃ c p, (Where.compile "n" false [.group .or
      [[.leaf ⟨"a", .unsupported "is", none⟩], [.leaf ⟨"b", .nin, some (.array [])⟩]],
        .leaf ⟨"b", .eq, none⟩]).runFrom .empty = (.ok c, p) := ⟨_, _, rfl⟩
  rcases atoms_compile (by decide) hrun with ⟨e, hread, hatoms⟩
  have hleaves : Tree.textLeaves [.group .or [[.leaf ⟨"a", .unsupported "is", none⟩],
      [.leaf ⟨"b", .nin, some (.array [])⟩]], .leaf ⟨"b", .eq, none⟩] =
        [(⟨"b", .eq, none⟩ : Comparison), ⟨"a", .unsupported "is", none⟩,
          ⟨"b", .nin, some (.array [])⟩] := by
    simp [Tree.textLeaves_eq, Tree.topLeaves]
  rw [hleaves] at hatoms
  exact ⟨c, p, hrun, e, hread, hatoms⟩

end Where

end GraphFilter
