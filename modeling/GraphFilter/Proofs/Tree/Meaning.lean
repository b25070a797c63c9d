import GraphFilter.Proofs.Cypher.Spliced
import GraphFilter.Proofs.Tree.Shape

/-!
# The meaning of a tree

A tree of truth values means something by its structure alone: its leaves and its
conjunctive group together, or exactly one of two children of its alternative group.
The text of the tree is read by the precedence of the joiners instead, and children
stand in it without parentheses.

Main results:

- Theorem {lit}`truth_eq_text`: what a tree adds to the text of a group is seen from two
  of its values.
- Theorem {lit}`Separated.truth_eq_meaning`: text and meaning agree where no child with an
  alternative group of its own stands beside another child.
-/

namespace GraphFilter.Tree

variable {α β : Type}

/-! ## Siblings -/

/-- The siblings of a child are children. -/
theorem mem_of_mem_siblings {child other : α} {before behind : List α}
    (h : other ∈ before ++ behind) : other ∈ before ++ child :: behind := by
  rw [List.mem_append] at h ⊢
  exact h.imp_right (List.mem_cons_of_mem _)

/-- A child of a group whose children were replaced, with its siblings. -/
theorem exists_of_map_eq_append_cons {f : α → β} {members : List α} {before behind : List β}
    {child : β} (h : members.map f = before ++ child :: behind) :
    ∃ first inner last, members = first ++ inner :: last ∧ f inner = child ∧
      (first ++ last).map f = before ++ behind := by
  rcases List.map_eq_append_iff.mp h with ⟨first, rest, rfl, rfl, hrest⟩
  rcases List.map_eq_cons_iff.mp hrest with ⟨inner, last, rfl, rfl, rfl⟩
  exact ⟨first, inner, last, rfl, rfl, List.map_append⟩

/-! ## Separated trees -/

/-- The leaves in front of the alternative group. -/
def frontLeaves (t : Tree α) : List α :=
  topLeaves t ++ (children .and t).flatMap textLeaves

/-- The leaves of the alternative group. -/
def backLeaves (t : Tree α) : List α :=
  (children .or t).flatMap textLeaves

/-- Whether a tree combines leaves or a conjunctive group with an alternative group. -/
def Mixed (t : Tree α) : Prop :=
  frontLeaves t ≠ [] ∧ backLeaves t ≠ []

/-- In each group within the tree, a mixed child is the only child with leaves. -/
inductive Separated : Tree α → Prop where
  | intro {t : Tree α}
      (halone : ∀ c before child behind, children c t = before ++ child :: behind →
        Mixed child → ∀ other ∈ before ++ behind, textLeaves other = [])
      (hchildren : ∀ c, ∀ child ∈ children c t, Separated child) : Separated t

/-- A tree is separated if so are the children of its groups, and if each of these groups
has a single child or no mixed one. -/
theorem Separated.of_children {t : Tree α}
    (h : ∀ c, (children c t).length ≤ 1 ∨ ∀ child ∈ children c t, ¬ Mixed child)
    (hchildren : ∀ c, ∀ child ∈ children c t, Separated child) : Separated t := by
  refine intro ?_ hchildren
  intro c before child behind heq hmixed other hother
  rcases h c with hlength | hnone
  · have hnil : before ++ behind = [] := by
      rw [heq, List.length_append, List.length_cons] at hlength
      refine List.eq_nil_of_length_eq_zero ?_
      rw [List.length_append]
      omega
    rw [hnil] at hother
    simp at hother
  · refine absurd hmixed (hnone child ?_)
    rw [heq]
    exact List.mem_append_right _ (List.mem_cons_self ..)

theorem textLeaves_eq_append (t : Tree α) : textLeaves t = frontLeaves t ++ backLeaves t :=
  textLeaves_eq t

theorem frontLeaves_map (f : α → β) (t : Tree α) :
    frontLeaves (map f t) = (frontLeaves t).map f := by
  rw [frontLeaves, frontLeaves, children_map, List.flatMap_map, List.map_append, List.map_flatMap,
    topLeaves_map, List.flatMap_congr fun child _ => textLeaves_map f child]

theorem backLeaves_map (f : α → β) (t : Tree α) :
    backLeaves (map f t) = (backLeaves t).map f := by
  rw [backLeaves, backLeaves, children_map, List.flatMap_map, List.map_flatMap,
    List.flatMap_congr fun child _ => textLeaves_map f child]

theorem mixed_map {f : α → β} {t : Tree α} : Mixed (map f t) ↔ Mixed t := by
  rw [Mixed, Mixed, frontLeaves_map, backLeaves_map, ne_eq, ne_eq, List.map_eq_nil_iff,
    List.map_eq_nil_iff]

/-! ## Meaning and text -/

/-- What a tree of truth values means: its leaves and the children of its conjunctive
group together, or the children of its alternative group, which exclude each other.
A part without leaves says nothing. -/
def meaning (t : Tree Bool) : Option Bool :=
  Option.merge Joiner.or.apply
    (Option.merge Joiner.and.apply (Joiner.and.combine (topLeaves t))
      (Joiner.and.combine ((children .and t).attach.filterMap fun child => meaning child.1)))
    (Joiner.xor.combine ((children .or t).attach.filterMap fun child => meaning child.1))
termination_by sizeOf t
decreasing_by all_goals exact sizeOf_lt_of_mem_children child.2

/-- What the children of a group mean together. -/
def groupMeaning (c : Combinator) (members : List (Tree Bool)) : Option Bool :=
  (joiner c false).combine (members.filterMap meaning)

/-- The value of the text of a tree. -/
def truth (t : Tree Bool) : Option Bool :=
  Row.truth (row Joiner.apply id t)

/-- The value of the text of a group. -/
def groupTruth (c : Combinator) (members : List (Tree Bool)) : Option Bool :=
  Row.truth (splice c true (members.map (row Joiner.apply id)))

/-- A tree as the group sees it that it is a child of. -/
def view (t : Tree Bool) : View where
  front :=
    Option.merge Joiner.and.apply (Joiner.and.combine (topLeaves t))
      (groupTruth .and (children .and t))
  back := groupTruth .or (children .or t)
  meaning := meaning t

theorem meaning_eq (t : Tree Bool) :
    meaning t =
      Option.merge Joiner.or.apply
        (Option.merge Joiner.and.apply (Joiner.and.combine (topLeaves t))
          (groupMeaning .and (children .and t)))
        (groupMeaning .or (children .or t)) := by
  rw [meaning, groupMeaning, groupMeaning]
  simp [joiner]

theorem joined_view (c : Combinator) (members : List (Tree Bool)) :
    View.joined c (members.map view) = groupMeaning c members := by
  rw [View.joined, groupMeaning, List.filterMap_map]
  rfl

/-! ## Trees without repeated groups -/

section
variable {t : Tree Bool}

/-- The operands of a tree are its leaves and the values of its two groups. -/
theorem row_eq_of_single (h : SingleGroups t) :
    row Joiner.apply id t =
      (topLeaves t ++ (groupTruth .and (children .and t)).toList).map (fun b => (.and, b)) ++
        (groupTruth .or (children .or t)).toList.map fun b => (.or, b) := by
  have hgroup (c : Combinator) : Row.value Joiner.apply
      (Chain.row Joiner.apply id (groupTerms c t)) = groupTruth c (children c t) := by
    rw [h.groupTerms_eq, row_childTerms]
    rfl
  rw [row_eq, Row.wrap, Row.wrap, hgroup, hgroup, List.map_append]
  rfl

/-- A tree is read like the two values that its group sees. -/
theorem alike_row_view (h : SingleGroups t) : (row Joiner.apply id t).Alike (view t).row := by
  rw [row_eq_of_single h, View.row, view, ← Joiner.combine_and_append]
  exact Row.alike_combine _ _

theorem truth_eq_text (h : SingleGroups t) : truth t = (view t).text := by
  rw [truth, (alike_row_view h).truth_eq, View.truth_row]

/-- The value of a group is that of its children as it sees them. -/
theorem groupTruth_eq_spliced {members : List (Tree Bool)}
    (h : ∀ child ∈ members, SingleGroups child) (c : Combinator) :
    groupTruth c members = View.spliced c (members.map view) := by
  refine truth_splice_congr ?_
  rw [List.map_map, List.forall₂_map_left_iff, List.forall₂_map_right_iff, List.forall₂_same]
  exact fun child hchild => alike_row_view (h child hchild)

/-! ## Trees without leaves -/

theorem groupTruth_eq_none {c : Combinator} {members : List (Tree Bool)} :
    groupTruth c members = none ↔ ∀ child ∈ members, truth child = none := by
  simp [groupTruth, truth, splice_eq_nil_iff]

theorem groupMeaning_eq_none {c : Combinator} {members : List (Tree Bool)} :
    groupMeaning c members = none ↔ ∀ child ∈ members, meaning child = none := by
  simp [groupMeaning]

/-- Where nothing is joined, nothing was there. -/
theorem merge_eq_none {f : Bool → Bool → Bool} {a b : Option Bool} :
    Option.merge f a b = none ↔ a = none ∧ b = none := by
  cases a <;> cases b <;> simp

/-- A tree says nothing exactly if it has no leaves. -/
theorem meaning_eq_none : meaning t = none ↔ textLeaves t = [] := by
  induction t using induction with
  | step t ih =>
    have hgroup (c : Combinator) :
        groupMeaning c (children c t) = none ↔ (children c t).flatMap textLeaves = [] := by
      rw [groupMeaning_eq_none, List.flatMap_eq_nil_iff]
      exact forall₂_congr fun child hchild => ih c child hchild
    rw [meaning_eq, merge_eq_none, merge_eq_none, Joiner.combine_eq_none, hgroup, hgroup,
      textLeaves_eq, List.append_eq_nil_iff, List.append_eq_nil_iff]

/-- Nor does its text then. -/
theorem truth_eq_none (h : SingleGroups t) : truth t = none ↔ textLeaves t = [] := by
  induction t using induction with
  | step t ih =>
    have hgroup (c : Combinator) :
        groupTruth c (children c t) = none ↔ (children c t).flatMap textLeaves = [] := by
      rw [groupTruth_eq_none, List.flatMap_eq_nil_iff]
      exact forall₂_congr fun child hchild => ih c child hchild (h.of_mem_children hchild)
    rw [truth_eq_text h, View.text, view, merge_eq_none, merge_eq_none, Joiner.combine_eq_none,
      hgroup, hgroup, textLeaves_eq, List.append_eq_nil_iff, List.append_eq_nil_iff]

/-! ## Text and meaning -/

theorem groupTruth_eq_none_iff {members : List (Tree Bool)}
    (h : ∀ child ∈ members, SingleGroups child) (c : Combinator) :
    groupTruth c members = none ↔ members.flatMap textLeaves = [] := by
  rw [groupTruth_eq_none, List.flatMap_eq_nil_iff]
  exact forall₂_congr fun child hchild => truth_eq_none (h child hchild)

theorem front_view_eq_none (h : SingleGroups t) : (view t).front = none ↔ frontLeaves t = [] := by
  rw [view, merge_eq_none, Joiner.combine_eq_none,
    groupTruth_eq_none_iff fun child => h.of_mem_children, frontLeaves, List.append_eq_nil_iff]

theorem back_view_eq_none (h : SingleGroups t) : (view t).back = none ↔ backLeaves t = [] := by
  rw [view, groupTruth_eq_none_iff fun child => h.of_mem_children, backLeaves]

theorem mixed_view (h : SingleGroups t) : (view t).Mixed ↔ Mixed t := by
  rw [View.Mixed, ne_eq, ne_eq, front_view_eq_none h, back_view_eq_none h, Mixed]

/-- The text of a separated tree means what the tree means. -/
theorem Separated.truth_eq_meaning (hseparated : Separated t) (h : SingleGroups t) :
    truth t = meaning t := by
  induction hseparated with
  | @intro t halone _ ih =>
    have hgroup (c : Combinator) :
        groupTruth c (children c t) = groupMeaning c (children c t) := by
      rw [groupTruth_eq_spliced fun child => h.of_mem_children, ← joined_view]
      refine View.spliced_eq_joined ?_ ?_
      · intro v hv
        rcases List.mem_map.mp hv with ⟨child, hchild, rfl⟩
        have hsingle := h.of_mem_children hchild
        rw [← truth_eq_text hsingle, ih c child hchild hsingle]
        rfl
      · intro before v behind heq hmixed other hother
        obtain ⟨first, child, last, hchildren, rfl, hsiblings⟩ :=
          exists_of_map_eq_append_cons heq
        have hchild : SingleGroups child := by
          refine h.of_mem_children (c := c) ?_
          rw [hchildren]
          exact List.mem_append_right _ (List.mem_cons_self ..)
        rw [← hsiblings] at hother
        rcases List.mem_map.mp hother with ⟨sibling, hsibling, rfl⟩
        have hsingle : SingleGroups sibling := by
          refine h.of_mem_children (c := c) ?_
          rw [hchildren]
          exact mem_of_mem_siblings hsibling
        have hblank := halone c first child last hchildren ((mixed_view hchild).mp hmixed)
          sibling hsibling
        rw [← truth_eq_text hsingle, truth_eq_none hsingle, hblank]
    rw [truth_eq_text h, View.text, view, hgroup, hgroup, ← meaning_eq]

end

/-! ## What only depends on the shape -/

section
variable {s : Tree α} {t : Tree β} (h : SameShape s t)
include h

theorem SameShape.frontLeaves_eq_nil_iff : frontLeaves s = [] ↔ frontLeaves t = [] := by
  have hmap := congrArg frontLeaves h
  rw [shape, shape, frontLeaves_map, frontLeaves_map] at hmap
  rw [← List.map_eq_nil_iff, hmap, List.map_eq_nil_iff]

theorem SameShape.backLeaves_eq_nil_iff : backLeaves s = [] ↔ backLeaves t = [] := by
  have hmap := congrArg backLeaves h
  rw [shape, shape, backLeaves_map, backLeaves_map] at hmap
  rw [← List.map_eq_nil_iff, hmap, List.map_eq_nil_iff]

theorem SameShape.textLeaves_eq_nil_iff : textLeaves s = [] ↔ textLeaves t = [] := by
  rw [textLeaves_eq_append, textLeaves_eq_append, List.append_eq_nil_iff, List.append_eq_nil_iff,
    h.frontLeaves_eq_nil_iff, h.backLeaves_eq_nil_iff]

end

theorem Separated.map {t : Tree α} (h : Separated t) (f : α → β) : Separated (map f t) := by
  induction h with
  | @intro t halone _ ih =>
    refine intro ?_ ?_
    · intro c before child behind hchildren hmixed other hother
      rw [children_map] at hchildren
      rcases exists_of_map_eq_append_cons hchildren with ⟨first, inner, last, heq, rfl, hsiblings⟩
      rw [← hsiblings] at hother
      rcases List.mem_map.mp hother with ⟨sibling, hsibling, rfl⟩
      rw [textLeaves_map, halone c first inner last heq (mixed_map.mp hmixed) sibling hsibling]
      rfl
    · intro c child hchild
      rw [children_map] at hchild
      rcases List.mem_map.mp hchild with ⟨inner, hinner, rfl⟩
      exact ih c inner hinner

theorem Separated.of_map {t : Tree α} {f : α → β} (h : Separated (Tree.map f t)) :
    Separated t := by
  induction t using induction with
  | step t ih =>
    cases h with
    | intro halone hchildren =>
      refine intro ?_ ?_
      · intro c before child behind heq hmixed other hother
        have hmap : children c (Tree.map f t) =
            before.map (Tree.map f) ++ Tree.map f child :: behind.map (Tree.map f) := by
          rw [children_map, heq, List.map_append, List.map_cons]
        have hblank := halone c _ _ _ hmap (mixed_map.mpr hmixed) (Tree.map f other) (by
          rw [← List.map_append]
          exact List.mem_map_of_mem hother)
        rw [textLeaves_map, List.map_eq_nil_iff] at hblank
        exact hblank
      · intro c child hchild
        refine ih c child hchild (hchildren c _ ?_)
        rw [children_map]
        exact List.mem_map_of_mem hchild

/-- Whether a tree is separated is a matter of its shape. -/
theorem Separated.of_sameShape {s : Tree α} {t : Tree β} (hshape : SameShape s t)
    (h : Separated t) : Separated s := by
  have hboth : Separated (shape t) := h.map _
  rw [← hshape] at hboth
  exact hboth.of_map

end GraphFilter.Tree
