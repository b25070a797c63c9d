import GraphFilter.Proofs.Cypher.Part
import GraphFilter.Proofs.Tree.Shape

/-!
# Grouping by precedence

A row of operands with joiners between them is grouped by the precedence of the
joiners alone: `AND` binds tighter than `XOR`, and `XOR` tighter than `OR`.  Reading
from left to right, it is enough to keep the conjunction that was begun last, the
exclusive disjunction in front of it and the disjunction in front of that.

Main results:

- Theorem {lit}`Row.map_value`: grouping commutes with evaluation.
- Theorem {lit}`Tree.row_eq`: the row of a tree consists of its leaves, one value
  for its conjunctive group and one for its alternative group.
-/

namespace GraphFilter

/-! ## Rows -/

/-- Operands, each with the joiner in front of it; that of the first is not read. -/
abbrev Row (β : Type) := List (Joiner × β)

/-- What was read of a row: the disjunction and the exclusive disjunction that are
complete but for their last operand, and the conjunction begun last. -/
structure Reading (β : Type) where
  alternatives : Option β
  exclusives : Option β
  conjuncts : β

namespace Reading

variable {β γ : Type} (op : Joiner → β → β → β)

/-- Join an operand to what stands in front of it. -/
def behind (j : Joiner) : Option β → β → β
  | none, b => b
  | some a, b => op j a b

/-- The exclusive disjunction that ends here. -/
def closeExclusives (r : Reading β) : β :=
  behind op .xor r.exclusives r.conjuncts

/-- The disjunction that ends here. -/
def close (r : Reading β) : β :=
  behind op .or r.alternatives (r.closeExclusives op)

/-- Read one more operand. -/
def push (r : Reading β) : Joiner × β → Reading β
  | (.and, b) => { r with conjuncts := op .and r.conjuncts b }
  | (.xor, b) => { r with exclusives := some (r.closeExclusives op), conjuncts := b }
  | (.or, b) => ⟨some (r.close op), none, b⟩

/-- Read the rest of a row. -/
def pushAll (r : Reading β) (row : Row β) : Reading β :=
  row.foldl (push op) r

@[simp]
theorem pushAll_nil (r : Reading β) : r.pushAll op [] = r :=
  rfl

@[simp]
theorem pushAll_cons (r : Reading β) (item : Joiner × β) (row : Row β) :
    r.pushAll op (item :: row) = (r.push op item).pushAll op row :=
  rfl

/-- Apply a function to everything that was read. -/
def map (f : β → γ) (r : Reading β) : Reading γ :=
  ⟨r.alternatives.map f, r.exclusives.map f, f r.conjuncts⟩

variable {op} {op' : Joiner → γ → γ → γ} {f : β → γ}
  (hf : ∀ j a b, f (op j a b) = op' j (f a) (f b))
include hf

theorem map_behind (j : Joiner) (a : Option β) (b : β) :
    f (behind op j a b) = behind op' j (a.map f) (f b) := by
  cases a with
  | none => rfl
  | some a => exact hf j a b

theorem map_close (r : Reading β) : f (r.close op) = (r.map f).close op' := by
  unfold close closeExclusives
  rw [map_behind hf, map_behind hf]
  rfl

theorem map_push (r : Reading β) (item : Joiner × β) :
    (r.push op item).map f = (r.map f).push op' (item.1, f item.2) := by
  rcases item with ⟨j, b⟩
  cases j with
  | and => simp [push, map, hf]
  | xor => simp [push, map, closeExclusives, map_behind hf]
  | or =>
    have hclose := map_close hf r
    simp only [map] at hclose
    simp only [push, map, Option.map_some, Option.map_none, hclose]

theorem map_pushAll (r : Reading β) (row : Row β) :
    (r.pushAll op row).map f =
      (r.map f).pushAll op' (row.map fun item => (item.1, f item.2)) := by
  induction row generalizing r with
  | nil => rfl
  | cons item row ih => rw [pushAll_cons, ih, map_push hf, List.map_cons, pushAll_cons]

end Reading

namespace Row

variable {β γ : Type} (op : Joiner → β → β → β)

/-- The value of a row, if it has operands. -/
def value : Row β → Option β
  | [] => none
  | (_, b) :: rest => some ((Reading.pushAll op ⟨none, none, b⟩ rest).close op)

/-- Set the joiner in front of a row. -/
def withJoiner (j : Joiner) : Row β → Row β
  | [] => []
  | (_, b) :: rest => (j, b) :: rest

/-- The value of a row as a single operand. -/
def wrap (j : Joiner) (row : Row β) : Row β :=
  (value op row).toList.map fun b => (j, b)

@[simp]
theorem value_eq_none {row : Row β} : value op row = none ↔ row = [] := by
  cases row <;> simp [value]

@[simp]
theorem withJoiner_eq_nil {j : Joiner} {row : Row β} : withJoiner j row = [] ↔ row = [] := by
  cases row <;> simp [withJoiner]

/-- The joiner in front of a row has no influence on its value. -/
@[simp]
theorem value_withJoiner (j : Joiner) (row : Row β) :
    value op (withJoiner j row) = value op row := by
  cases row <;> rfl

variable {op} {op' : Joiner → γ → γ → γ} {f : β → γ}
  (hf : ∀ j a b, f (op j a b) = op' j (f a) (f b))
include hf

/-- Grouping commutes with functions that commute with the joiners. -/
theorem map_value (row : Row β) :
    (value op row).map f = value op' (row.map fun item => (item.1, f item.2)) := by
  cases row with
  | nil => rfl
  | cons item rest =>
    simp only [value, Option.map_some, List.map_cons]
    rw [Reading.map_close hf, Reading.map_pushAll hf]
    rfl

theorem map_wrap (j : Joiner) (row : Row β) :
    (wrap op j row).map (fun item => (item.1, f item.2)) =
      wrap op' j (row.map fun item => (item.1, f item.2)) := by
  unfold wrap
  rw [← map_value hf]
  cases value op row <;> rfl

end Row

/-! ## Rows of expressions -/

namespace Chain

variable {α β γ : Type} (op : Joiner → β → β → β) (leaf : α → β)

mutual

/-- The operand that a term is, if it has a value. -/
def termRow (j : Joiner) : Term α → Row β
  | .atom a => [(j, leaf a)]
  | .paren terms => Row.wrap op j (row terms)

/-- The operands of a chain. -/
def row : List (Joiner × Term α) → Row β
  | [] => []
  | (j, t) :: rest => termRow j t ++ row rest

end

@[simp]
theorem row_append (c d : Chain α) : row op leaf (c ++ d) = row op leaf c ++ row op leaf d := by
  induction c with
  | nil => rfl
  | cons term rest ih => simp [row, ih]

/-- Evaluating the operands of a chain. -/
theorem map_row {op' : Joiner → γ → γ → γ} {f : β → γ}
    (hf : ∀ j a b, f (op j a b) = op' j (f a) (f b)) (c : Chain α) :
    (row op leaf c).map (fun item => (item.1, f item.2)) = row op' (fun a => f (leaf a)) c := by
  induction c using induction with
  | nil => rfl
  | atom j a rest ih =>
    simp only [row, termRow, List.map_append, ih]
    rfl
  | paren j terms rest ihterms ihrest =>
    simp only [row, termRow, List.map_append, Row.map_wrap hf, ihterms, ihrest]

/-- No parentheses stand around nothing. -/
inductive Solid : Chain α → Prop where
  | nil : Solid []
  | atom (j : Joiner) (a : α) {rest : Chain α} (hrest : Solid rest) : Solid ((j, .atom a) :: rest)
  | paren (j : Joiner) {terms rest : Chain α} (hne : terms ≠ []) (hterms : Solid terms)
      (hrest : Solid rest) : Solid ((j, .paren terms) :: rest)

namespace Solid

theorem append {c d : Chain α} (hc : Solid c) (hd : Solid d) : Solid (c ++ d) := by
  induction hc with
  | nil => exact hd
  | atom j a _ ih => exact Solid.atom j a ih
  | paren j hne hterms _ _ ih => exact Solid.paren j hne hterms ih

theorem withJoiner {j : Joiner} {c : Chain α} (h : Solid c) : Solid (withJoiner j c) := by
  cases h with
  | nil => exact Solid.nil
  | atom _ a hrest => exact Solid.atom j a hrest
  | paren _ hne hterms hrest => exact Solid.paren j hne hterms hrest

theorem wrap {j : Joiner} {c : Chain α} (h : Solid c) : Solid (wrap j c) := by
  cases c with
  | nil => exact Solid.nil
  | cons term rest => exact Solid.paren j (List.cons_ne_nil _ _) h Solid.nil

/-- Where parentheses hold something, only the chain without terms has no operands. -/
theorem row_eq_nil_iff {c : Chain α} (h : Solid c) : row op leaf c = [] ↔ c = [] := by
  induction h with
  | nil => simp [row]
  | atom j a _ _ => simp [row, termRow]
  | paren j hne _ _ ihterms _ =>
    simp [row, termRow, Row.wrap, ihterms, hne]

/-- Setting the joiner in front of a chain sets that of its first operand. -/
theorem row_withJoiner {j : Joiner} {c : Chain α} (h : Solid c) :
    row op leaf (Chain.withJoiner j c) = Row.withJoiner j (row op leaf c) := by
  cases h with
  | nil => rfl
  | atom _ a hrest => rfl
  | @paren _ terms rest hne hterms hrest =>
    obtain ⟨b, hb⟩ : ∃ b, Row.value op (row op leaf terms) = some b := by
      rw [← Option.ne_none_iff_exists', ne_eq, Row.value_eq_none, hterms.row_eq_nil_iff op leaf]
      exact hne
    simp only [Chain.withJoiner, row, termRow, Row.wrap, hb]
    rfl

end Solid

/-- A chain in parentheses is one operand. -/
theorem row_wrap (j : Joiner) (c : Chain α) :
    row op leaf (wrap j c) = Row.wrap op j (row op leaf c) := by
  cases c with
  | nil => rfl
  | cons term rest => simp [wrap, row, termRow]

end Chain

/-! ## Rows of trees -/

namespace Tree

variable {α β : Type} (op : Joiner → β → β → β) (leaf : α → β)

/-- The operands of the children of a group, given those of each child. -/
def splice (c : Combinator) : Bool → List (Row β) → Row β
  | _, [] => []
  | first, row :: rest => Row.withJoiner (joiner c first) row ++ splice c false rest

theorem solid_topTerms (t : Tree α) : Chain.Solid (topTerms t) := by
  induction t with
  | nil => exact Chain.Solid.nil
  | cons condition rest ih =>
    cases condition with
    | leaf a => exact Chain.Solid.atom .and a ih
    | group c members => exact ih

theorem solid_childTerms (c : Combinator) (first : Bool) {members : List (Tree α)}
    (h : ∀ child ∈ members, Chain.Solid (toChain child)) :
    Chain.Solid (childTerms c first members) := by
  induction members generalizing first with
  | nil => exact Chain.Solid.nil
  | cons child rest ih =>
    rw [childTerms_cons]
    have hchild := h child (List.mem_cons_self ..)
    have hrest := ih false fun child hmem => h child (List.mem_cons_of_mem _ hmem)
    exact hchild.withJoiner.append hrest

/-- In the expression of a tree no parentheses stand around nothing. -/
theorem solid_toChain (t : Tree α) : Chain.Solid (toChain t) := by
  induction t using induction with
  | step t ih =>
    have hgroup (c : Combinator) : Chain.Solid (groupTerms c t) := by
      have hmembers : ∀ members ∈ groups c t, ∀ child ∈ members, Chain.Solid (toChain child) := by
        intro members hmembers child hchild
        exact ih c child (List.mem_flatten.mpr ⟨members, hmembers, hchild⟩)
      rw [groupTerms_eq_flatMap]
      generalize groups c t = all at hmembers ⊢
      induction all with
      | nil => exact Chain.Solid.nil
      | cons members rest ihrest =>
        rw [List.flatMap_cons]
        have hfirst := solid_childTerms c true (hmembers members (List.mem_cons_self ..))
        have hrest := ihrest fun members hmem => hmembers members (List.mem_cons_of_mem _ hmem)
        exact hfirst.append hrest
    exact ((solid_topTerms t).append (hgroup .and).wrap).append (hgroup .or).wrap

/-- The operands of a tree. -/
def row (t : Tree α) : Row β :=
  Chain.row op leaf (toChain t)

theorem row_topTerms (t : Tree α) :
    Chain.row op leaf (topTerms t) = (topLeaves t).map fun a => (.and, leaf a) := by
  induction t with
  | nil => rfl
  | cons condition rest ih =>
    cases condition with
    | leaf a => simp [topTerms, topLeaves, Chain.row, Chain.termRow, ih]
    | group c members => exact ih

theorem row_childTerms (c : Combinator) (first : Bool) (members : List (Tree α)) :
    Chain.row op leaf (childTerms c first members) =
      splice c first (members.map (row op leaf)) := by
  induction members generalizing first with
  | nil => rfl
  | cons child rest ih =>
    rw [childTerms_cons, Chain.row_append, (solid_toChain child).row_withJoiner, ih]
    rfl

/-- The operands of the groups of a combinator, each with its children spliced. -/
theorem row_groupTerms (c : Combinator) (t : Tree α) :
    Chain.row op leaf (groupTerms c t) =
      (groups c t).flatMap fun members => splice c true (members.map (row op leaf)) := by
  rw [groupTerms_eq_flatMap]
  induction groups c t with
  | nil => rfl
  | cons members rest ih =>
    rw [List.flatMap_cons, List.flatMap_cons, Chain.row_append, ih, row_childTerms]

/-- The terms of a group that is not repeated are those of its children. -/
theorem SingleGroups.groupTerms_eq {t : Tree α} (h : SingleGroups t) (c : Combinator) :
    groupTerms c t = childTerms c true (children c t) := by
  have hlength := h.length_groups c
  rw [groupTerms_eq_flatMap, children]
  cases hgroups : groups c t with
  | nil => rfl
  | cons members rest =>
    have hrest : rest = [] := by
      rw [hgroups, List.length_cons] at hlength
      exact List.eq_nil_of_length_eq_zero (by omega)
    rw [hrest, List.flatMap_singleton, List.flatten_singleton]

/-- The operands of a tree: its leaves, its conjunctive group and its alternative
group, where each group is one value. -/
theorem row_eq (t : Tree α) :
    row op leaf t =
      (topLeaves t).map (fun a => (.and, leaf a)) ++
        Row.wrap op .and (Chain.row op leaf (groupTerms .and t)) ++
        Row.wrap op .or (Chain.row op leaf (groupTerms .or t)) := by
  rw [row, toChain, Chain.row_append, Chain.row_append, Chain.row_wrap, Chain.row_wrap,
    row_topTerms]

end Tree

end GraphFilter
