import GraphFilter.Proofs.Param.Numeric
import GraphFilter.Proofs.Where.Atoms
import GraphFilter.Proofs.Where.Malformed

/-!
# Operands of the right kind

Each symbol of a where text compares with parameters of one kind: an ordering with a number,
membership with a list, and all others with a scalar.  A comparison is malformed if its operand
cannot be brought to the kind of its symbol, so that whatever is left in a text finds a parameter
of this kind under its placeholder.

Main results:

- Theorem {lit}`Comparison.exists_convert_iff`: the operands that can be brought to a kind.
- Theorem {lit}`Where.typed_bind`: the placeholders of a where object stand for parameters of the
  right kind.
- Theorem {lit}`Where.typed_compile`: so do those of the text, and a comparison is refused exactly
  if its operator or its operand does not allow this.
-/

namespace GraphFilter

open Cypher (Atom Expr)

/-! ## Kinds -/

namespace Comparison.OperandKind

/-- The parameters of a kind. -/
def Takes : OperandKind → Param → Prop
  | scalar, p => (∃ b, p = .bool b) ∨ p.IsNumber ∨ ∃ s, p = .string s
  | number, p => p.IsNumber
  | list, p => ∃ items, p = .list items

/-- The operands that can be brought to a kind. -/
def Admits : OperandKind → Json.Value → Prop
  | scalar, v => (∃ b, v = .bool b) ∨ (∃ num, v = .number num) ∨ ∃ s, v = .string s
  | number, v => (∃ num, v = .number num) ∨ ∃ s, v = .string s ∧ SpellsNumber s
  | list, v => ∃ items, v = .array items

/-- The kind with which a symbol compares. -/
def ofSymbol? (symbol : String) : Option OperandKind :=
  if symbol ∈ [">", ">=", "<", "<="] then some number
  else if symbol = "IN" then some list
  else if symbol ∈ ["=", "<>", "CONTAINS"] then some scalar
  else none

end Comparison.OperandKind

open Comparison (OperandKind)

/-- Whether an atom compares with a parameter of the kind of its symbol. -/
def Cypher.Atom.Typed (params : Bindings) : Atom → Prop
  | .isNull _ | .isNotNull _ => True
  | .compares _ _ symbol placeholder => ∃ kind value, OperandKind.ofSymbol? symbol = some kind ∧
      params.get? placeholder = some value ∧ kind.Takes value

/-! ## Comparisons -/

namespace Comparison

section
variable {field operator : String} {kind : OperandKind} {v : Json.Value} (hnull : v.isNull = false)
include hnull

/-- What an operand is converted to has the kind that is asked for. -/
theorem takes_of_convert {p : Param} (h : (convert field operator kind v).toOption = some p) :
    kind.Takes p := by
  rw [toOption_convert] at h
  cases kind with
  | scalar =>
    cases v with
    | null => cases hnull
    | bool b =>
      cases h
      exact .inl ⟨b, rfl⟩
    | number num =>
      cases h
      exact .inr (.inl (Param.isNumber_ofNumber num))
    | string s =>
      cases h
      exact .inr (.inr ⟨s, rfl⟩)
    | array items => cases h
    | object members => cases h
  | number => exact Param.isNumber_of_numeric? h
  | list =>
    cases v with
    | array items =>
      cases h
      exact ⟨_, rfl⟩
    | _ => cases h

/-- The operands that can be brought to a kind are those that are converted. -/
theorem exists_convert_iff (field operator : String) (kind : OperandKind) :
    (∃ p, (convert field operator kind v).toOption = some p) ↔ kind.Admits v := by
  simp only [toOption_convert]
  cases kind with
  | scalar =>
    cases v with
    | null => cases hnull
    | _ => simp [OperandKind.Admits, Json.Value.isScalar]
  | number => exact Param.exists_numeric?_iff
  | list => cases v <;> simp [OperandKind.Admits, Json.Value.isArray]

end

/-- An operand that counts is not null. -/
theorem isNull_of_operand? {c : Comparison} {v : Json.Value} (h : c.operand? = some v) :
    v.isNull = false := by
  simpa using (Option.filter_eq_some_iff.mp h).2

theorem isSome_relation? (operator : Operator) :
    (relation? operator).isSome = operator.isSupported := by
  cases operator <;> rfl

/-- An operator has the symbol of its relation, which compares with the kind of operand that is
asked for. -/
theorem ofSymbol?_of_relation? {operator : Operator} {relation : Relation} {kind : OperandKind}
    (h : relation? operator = some (relation, kind)) :
    operator.symbol? = some relation.symbol ∧
      OperandKind.ofSymbol? relation.symbol = some kind := by
  cases operator <;> cases h <;> exact ⟨rfl, rfl⟩

/-- A checked comparison asks for a parameter of the kind of its symbol. -/
theorem takes_of_check? {c : Comparison} {field : String} {relation : Relation} {value : Param}
    (h : c.check? = some ⟨field, .relates relation value⟩) :
    ∃ kind, OperandKind.ofSymbol? relation.symbol = some kind ∧ kind.Takes value := by
  cases hoperand : c.operand? with
  | none =>
    rw [check?_of_none hoperand] at h
    split at h <;> cases h
  | some v =>
    rw [check?_of_some hoperand] at h
    rcases Option.bind_eq_some_iff.mp h with ⟨⟨relation', kind⟩, hrelation, h⟩
    rcases Option.map_eq_some_iff.mp h with ⟨value', hvalue, heq⟩
    cases heq
    exact ⟨kind, (ofSymbol?_of_relation? hrelation).2,
      takes_of_convert (isNull_of_operand? hoperand) hvalue⟩

/-- The comparisons that are not accepted: those with an unknown operator, those without an
operand unless they test for null, and those of which the operand is of another kind. -/
theorem check?_eq_none_iff {c : Comparison} : c.check? = none ↔
    c.operator.isSupported = false ∨
    (c.operand? = none ∧ c.operator ≠ .eq ∧ c.operator ≠ .neq) ∨
    ∃ symbol kind v, c.operator.symbol? = some symbol ∧ OperandKind.ofSymbol? symbol = some kind ∧
      c.operand? = some v ∧ ¬kind.Admits v := by
  cases hoperand : c.operand? with
  | none =>
    rw [check?_of_none hoperand]
    cases c.operator <;> simp [Operator.isSupported]
  | some v =>
    rw [check?_of_some hoperand]
    cases hrelation : relation? c.operator with
    | none =>
      refine iff_of_true rfl (.inl ?_)
      rw [← isSome_relation?, hrelation]
      rfl
    | some entry =>
      rcases entry with ⟨relation, kind⟩
      rcases ofSymbol?_of_relation? hrelation with ⟨hsymbol, hkind⟩
      have hsupported : c.operator.isSupported = true := by
        rw [← isSome_relation?, hrelation]
        rfl
      have hconvert := exists_convert_iff (isNull_of_operand? hoperand) c.field c.operator.name kind
      rw [hsymbol, hsupported, Option.bind_some, Option.map_eq_none_iff,
        Option.eq_none_iff_forall_ne_some, ← not_exists, hconvert]
      simp [hkind]

/-- Compiled on its own, a comparison is refused as malformed exactly if it is not accepted. -/
theorem malformed_compile_iff (node : String) (names : NameSupply) (c : Comparison) :
    (∃ error p, (c.compile node).runFrom names = (.error error, p) ∧ error.isMalformed = true) ↔
      c.check? = none := by
  have hcompile : c.compile node = c.bind >>= fun p => pure (p.clause node) := rfl
  rw [hcompile, bind, check?]
  cases hcheck : c.check with
  | ok p =>
    refine iff_of_false ?_ (by simp [Except.toOption])
    rintro ⟨error, left, hrun, -⟩
    cases hrun
  | error error =>
    exact iff_of_true ⟨error, _, rfl, isMalformed_of_check hcheck⟩ rfl

end Comparison

/-! ## Where objects -/

/-- A bound predicate compares with a parameter of the kind of its symbol. -/
theorem Predicate.typed_atom {params : Bindings} {p : Predicate Bound} {c : Comparison}
    (hparams : ∀ name value, p.binding? = some (name, value) → params.get? name = some value)
    (hcheck : c.check? = some p.unbind) : p.atom.Typed params := by
  rcases p with ⟨field, test⟩
  cases test with
  | null negated => cases negated <;> trivial
  | relates relation operand =>
    rcases Comparison.takes_of_check? hcheck with ⟨kind, hkind, htakes⟩
    exact ⟨kind, operand.value, hkind, hparams _ _ rfl, htakes⟩

namespace Where

/-- The placeholders of a where object stand for parameters of the right kind. -/
theorem typed_bind (node : String) (w : Where) (names : NameSupply) :
    ∀ p ∈ Tree.textLeaves (w.bind.run names).1,
      p.atom.Typed (Tree.clause node (w.bind.run names).1).params := by
  intro p hp
  have hmem : p.unbind ∈ (Tree.textLeaves w).filterMap Comparison.check? := by
    rw [← Tree.textLeaves_filterMap, ← w.map_unbind_bind names, Tree.textLeaves_map]
    exact List.mem_map_of_mem hp
  rcases List.mem_filterMap.mp hmem with ⟨c, -, hcheck⟩
  refine Predicate.typed_atom ?_ hcheck
  intro name value hbinding
  exact get?_of_mem_bind hp hbinding

/-- In a compiled where object each placeholder behind an ordering stands for an integer or a
finite floating-point number, behind {lit}`IN` for a list, and behind any other symbol for a
boolean, a number or a string.  A comparison is malformed exactly if its operator is not supported
or its operand cannot be brought to the kind of its symbol; without an operand only equality and
inequality are well-formed. -/
theorem typed_compile :
    (∀ node strict (w : Where) names c p, (w.compile node strict).runFrom names = (.ok c, p) →
      (∃ t : Tree (Predicate Bound), c = Tree.clause node t ∧
        ∀ leaf ∈ Tree.leaves t, leaf.atom.Typed c.params) ∧
      (Cypher.isPlainName node = true → ∃ e, Cypher.readCondition node c.text = some e ∧
        ∀ atom ∈ (e.map Expr.atoms).getD [], atom.Typed c.params)) ∧
    ∀ node names (leaf : Comparison),
      (∃ error p, (leaf.compile node).runFrom names = (.error error, p) ∧
        error.isMalformed = true) ↔
      leaf.operator.isSupported = false ∨
      (leaf.operand? = none ∧ leaf.operator ≠ .eq ∧ leaf.operator ≠ .neq) ∨
      ∃ symbol kind v, leaf.operator.symbol? = some symbol ∧
        OperandKind.ofSymbol? symbol = some kind ∧ leaf.operand? = some v ∧ ¬kind.Admits v := by
  constructor
  · intro node strict w names c p hrun
    have hc : c = Tree.clause node (w.bind.run names).1 :=
      ((w.gives_compile node strict).of_runFrom hrun).1
    have htyped := w.typed_bind node names
    rw [← hc] at htyped
    refine ⟨⟨_, hc, ?_⟩, ?_⟩
    · intro leaf hleaf
      exact htyped leaf ((Tree.textLeaves_perm _).mem_iff.mpr hleaf)
    · intro halias
      rw [hc]
      refine ⟨_, readCondition_bind halias w names, ?_⟩
      rw [Tree.atoms_value, List.forall_mem_map, ← hc]
      exact htyped
  · intro node names leaf
    rw [Comparison.malformed_compile_iff, Comparison.check?_eq_none_iff]

/-- A number in a string is passed as a number.  One that overflows is left out. -/
theorem typed_compile_overflow :
    (∃ c p, (Where.compile "n" false [.leaf ⟨"age", .lt, some (.string "1e999")⟩,
        .leaf ⟨"age", .gt, some (.string " 21 ")⟩]).runFrom .empty = (.ok c, p) ∧
      c.text = "n.age > $age1" ∧ ∃ e, Cypher.readCondition "n" c.text = some e ∧
        ∀ atom ∈ (e.map Expr.atoms).getD [], atom.Typed c.params) ∧
    ¬SpellsNumber "1e999" := by
  constructor
  · obtain ⟨c, p, hrun, htext⟩ : ∃ c p, (Where.compile "n" false
        [.leaf ⟨"age", .lt, some (.string "1e999")⟩,
          .leaf ⟨"age", .gt, some (.string " 21 ")⟩]).runFrom .empty = (.ok c, p) ∧
        c.text = "n.age > $age1" := ⟨_, _, rfl, rfl⟩
    exact ⟨c, p, hrun, htext, (typed_compile.1 _ _ _ _ _ _ hrun).2 (by decide)⟩
  · rcases (typed_compile.2 "n" .empty ⟨"age", .lt, some (.string "1e999")⟩).mp ⟨_, _, rfl, rfl⟩ with
      hsupported | ⟨hoperand, -⟩ | ⟨symbol, kind, v, hsymbol, hkind, hoperand, hadmits⟩
    · cases hsupported
    · cases hoperand
    · cases hsymbol
      cases hkind
      cases hoperand
      intro hspells
      exact hadmits (.inr ⟨"1e999", rfl, hspells⟩)

end Where

end GraphFilter
