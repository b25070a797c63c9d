import GraphFilter.Where.Tree
import Mathlib.Data.List.Perm.Basic

/-!
# Children of a tree

A tree is worked through in two orders: depth first as it was given, and in the
order of its text, where the leaves of a tree come before its conjunctive group and
this one before its alternative group.  This module takes a tree apart in the
second way and gives the induction that goes with each.

Main results:

- Theorem {lit}`induction`: what holds of a tree once it holds of the children of
  all of its groups holds of every tree.
- Theorem {lit}`textLeaves_perm`: the text order only rearranges the leaves.
-/

namespace GraphFilter.Tree

variable {α β : Type}

/-! ## Parts of a tree -/

/-- The leaves at the top of a tree. -/
def topLeaves : List (Condition α) → List α
  | [] => []
  | .leaf a :: rest => a :: topLeaves rest
  | .group _ _ :: rest => topLeaves rest

/-- The groups of a combinator at the top of a tree, each as its children. -/
def groups (c : Combinator) : List (Condition α) → List (List (Tree α))
  | [] => []
  | .leaf _ :: rest => groups c rest
  | .group d members :: rest => if d = c then members :: groups c rest else groups c rest

/-- The children of all groups of a combinator at the top of a tree. -/
def children (c : Combinator) (t : Tree α) : List (Tree α) :=
  (groups c t).flatten

@[simp]
theorem children_nil (c : Combinator) : children c ([] : Tree α) = [] :=
  rfl

@[simp]
theorem children_leaf (c : Combinator) (a : α) (rest : Tree α) :
    children c (.leaf a :: rest) = children c rest :=
  rfl

@[simp]
theorem children_group (c d : Combinator) (members : List (Tree α)) (rest : Tree α) :
    children c (.group d members :: rest) =
      (if d = c then members else []) ++ children c rest := by
  unfold children
  rw [groups]
  split <;> simp

/-- A child is smaller than the tree it belongs to. -/
theorem sizeOf_lt_of_mem_children [SizeOf α] {c : Combinator} {t child : Tree α}
    (h : child ∈ children c t) :
    sizeOf child < sizeOf t := by
  induction t with
  | nil => simp at h
  | cons condition rest ih =>
    cases condition with
    | leaf a =>
      have hlt := ih h
      simp only [List.cons.sizeOf_spec]
      omega
    | group d members =>
      rw [children_group, List.mem_append] at h
      rcases h with h | h
      · have hmem : child ∈ members := by
          split at h
          · exact h
          · simp at h
        have hlt := List.sizeOf_lt_of_mem hmem
        simp only [List.cons.sizeOf_spec, Condition.group.sizeOf_spec]
        omega
      · have hlt := ih h
        simp only [List.cons.sizeOf_spec]
        omega

/-! ## Induction -/

/-- Induction over the children of a tree's groups. -/
@[elab_as_elim]
theorem induction {motive : Tree α → Prop}
    (step : ∀ t, (∀ c, ∀ child ∈ children c t, motive child) → motive t) (t : Tree α) :
    motive t :=
  step t fun _ child _ => induction step child
termination_by sizeOf t
decreasing_by exact sizeOf_lt_of_mem_children ‹_›

/-- Induction over the conditions of a tree in their order. -/
@[elab_as_elim]
theorem conditionInduction {motive : Tree α → Prop} (nil : motive [])
    (leaf : ∀ a rest, motive rest → motive (.leaf a :: rest))
    (group : ∀ c members rest, (∀ child ∈ members, motive child) → motive rest →
      motive (.group c members :: rest)) (t : Tree α) : motive t := by
  induction t using induction with
  | step t ih =>
    induction t with
    | nil => exact nil
    | cons condition rest ihrest =>
      have hrest : motive rest := by
        refine ihrest fun c child hchild => ih c child ?_
        cases condition <;> simp [hchild]
      cases condition with
      | leaf a => exact leaf a rest hrest
      | group c members =>
        exact group c members rest (fun child hchild => ih c child (by simp [hchild])) hrest

/-! ## Leaves in the order of the text -/

/-- The leaves in the order of the text: first those at the top, then those of the
children of the conjunctive groups, then those of the alternative groups. -/
def textLeaves (t : Tree α) : List α :=
  topLeaves t ++ (children .and t).attach.flatMap (fun child => textLeaves child.1) ++
    (children .or t).attach.flatMap (fun child => textLeaves child.1)
termination_by sizeOf t
decreasing_by all_goals exact sizeOf_lt_of_mem_children child.2

theorem textLeaves_eq (t : Tree α) :
    textLeaves t = topLeaves t ++ (children .and t).flatMap textLeaves ++
      (children .or t).flatMap textLeaves := by
  rw [textLeaves]
  simp [List.flatMap_def]

/-- The leaves of the children of a group are those of the single children. -/
theorem childLeaves_eq_flatMap (members : List (Tree α)) :
    childLeaves members = members.flatMap leaves := by
  induction members with
  | nil => rfl
  | cons t rest ih => rw [childLeaves, ih, List.flatMap_cons]

/-- The leaves in input order are those at the top and those below the groups. -/
theorem leaves_perm (t : Tree α) :
    (leaves t).Perm
      (topLeaves t ++ (children .and t).flatMap leaves ++ (children .or t).flatMap leaves) := by
  induction t with
  | nil => simp [leaves, topLeaves]
  | cons condition rest ih =>
    cases condition with
    | leaf a => simpa [leaves, conditionLeaves, topLeaves] using ih
    | group d members =>
      rw [leaves, conditionLeaves, childLeaves_eq_flatMap, topLeaves, children_group,
        children_group, List.flatMap_append, List.flatMap_append]
      refine (ih.append_left _).trans ?_
      cases d with
      | and => simpa using List.perm_append_comm_assoc ..
      | or =>
        simp only [reduceCtorEq, if_false, if_true, List.flatMap_nil, List.nil_append,
          List.append_assoc]
        exact (List.perm_append_comm_assoc ..).trans
          ((List.perm_append_comm_assoc ..).append_left _)

/-- A leaf stands at the top or below a child. -/
theorem mem_leaves_iff {t : Tree α} {a : α} :
    a ∈ leaves t ↔ a ∈ topLeaves t ∨ ∃ c, ∃ child ∈ children c t, a ∈ leaves child := by
  rw [(leaves_perm t).mem_iff, List.mem_append, List.mem_append, List.mem_flatMap,
    List.mem_flatMap, or_assoc]
  refine or_congr_right ?_
  constructor
  · rintro (h | h)
    · exact ⟨.and, h⟩
    · exact ⟨.or, h⟩
  · rintro ⟨c, h⟩
    cases c
    · exact Or.inl h
    · exact Or.inr h

/-- Text order only rearranges the leaves. -/
theorem textLeaves_perm (t : Tree α) : (textLeaves t).Perm (leaves t) := by
  induction t using induction with
  | step t ih =>
    have hgroup (c : Combinator) :
        ((children c t).flatMap textLeaves).Perm ((children c t).flatMap leaves) :=
      List.Perm.flatMap_left _ fun child hchild => ih c child hchild
    rw [textLeaves_eq]
    exact (((hgroup .and).append_left _).append (hgroup .or)).trans (leaves_perm t).symm

end GraphFilter.Tree
