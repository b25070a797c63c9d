import GraphFilter.Proofs.Tree.Traversal

/-!
# The shape of a tree

The shape of a tree is what is left of it when the content of its leaves is
forgotten.  A tree of the same shape as another one gives each of its leaves a value
of its own, also where two leaves have the same content.

Main results:

- Theorem {lit}`SingleGroups.of_sameShape`: whether a tree has at most one group of each
  combinator is a matter of its shape.
- Theorem {lit}`exists_assemble`: the leaves at the top of a tree and the children of its
  groups may be replaced independently.
- Theorem {lit}`exists_zip`: two trees of the same shape come from one tree of pairs.
-/

namespace GraphFilter.Tree

variable {α β γ : Type}

/-! ## Groups and replaced leaves -/

@[simp]
theorem groups_filterMap (c : Combinator) (f : α → Option β) (t : Tree α) :
    groups c (filterMap f t) = (groups c t).map (List.map (filterMap f)) := by
  induction t with
  | nil => rfl
  | cons condition rest ih =>
    cases condition with
    | leaf a =>
      rw [filterMap_leaf, groups, ← ih]
      cases f a <;> rfl
    | group d members =>
      rw [filterMap_group, groups, groups, ih]
      split <;> rfl

/-- Two replacements in a row are one. -/
theorem map_map (f : α → β) (g : β → γ) (t : Tree α) : map g (map f t) = map (fun a => g (f a)) t :=
  filterMap_filterMap _ _ t

@[simp]
theorem children_map (c : Combinator) (f : α → β) (t : Tree α) :
    children c (map f t) = (children c t).map (map f) :=
  children_filterMap c _ t

/-! ## Shapes -/

/-- A tree without the content of its leaves. -/
def shape (t : Tree α) : Tree Unit :=
  map (fun _ => ()) t

/-- Whether two trees only differ in the content of their leaves. -/
def SameShape (s : Tree α) (t : Tree β) : Prop :=
  shape s = shape t

/-- Replacing the content of the leaves keeps the shape. -/
theorem shape_map (f : α → β) (t : Tree α) : shape (map f t) = shape t :=
  map_map f _ t

theorem SameShape.leaf {s : Tree α} {t : Tree β} (h : SameShape s t) (a : α) (b : β) :
    SameShape (.leaf a :: s) (.leaf b :: t) := by
  unfold SameShape shape at h ⊢
  rw [map_leaf, map_leaf, h]

/-- Trees of the same shape, one by one. -/
theorem forall₂_sameShape_iff {ss : List (Tree α)} {ts : List (Tree β)} :
    List.Forall₂ SameShape ss ts ↔ ss.map shape = ts.map shape := by
  rw [← List.forall₂_eq_eq_eq, List.forall₂_map_left_iff, List.forall₂_map_right_iff]
  rfl

theorem SameShape.group {s : Tree α} {t : Tree β} {ss : List (Tree α)} {ts : List (Tree β)}
    (h : SameShape s t) (hmembers : List.Forall₂ SameShape ss ts) (c : Combinator) :
    SameShape (.group c ss :: s) (.group c ts :: t) := by
  have hshapes := forall₂_sameShape_iff.mp hmembers
  unfold SameShape shape at h ⊢
  rw [map_group, map_group, h]
  unfold shape at hshapes
  rw [hshapes]

/-- A tree of the shape of one that begins with a leaf. -/
theorem SameShape.leaf_inv {s : Tree α} {b : β} {t : Tree β} (h : SameShape s (.leaf b :: t)) :
    ∃ a rest, s = .leaf a :: rest ∧ SameShape rest t := by
  unfold SameShape shape at h
  rw [map_leaf] at h
  cases s with
  | nil => simp at h
  | cons condition rest =>
    cases condition with
    | leaf a =>
      rw [map_leaf, List.cons.injEq] at h
      exact ⟨a, rest, rfl, h.2⟩
    | group d members => simp at h

/-- A tree of the shape of one that begins with a group. -/
theorem SameShape.group_inv {s : Tree α} {c : Combinator} {members : List (Tree β)} {t : Tree β}
    (h : SameShape s (.group c members :: t)) :
    ∃ ss rest, s = .group c ss :: rest ∧ List.Forall₂ SameShape ss members ∧ SameShape rest t := by
  unfold SameShape shape at h
  rw [map_group] at h
  cases s with
  | nil => simp at h
  | cons condition rest =>
    cases condition with
    | leaf a => simp at h
    | group d ss =>
      rw [map_group, List.cons.injEq, Condition.group.injEq] at h
      rcases h with ⟨⟨rfl, hmembers⟩, hrest⟩
      exact ⟨ss, rest, rfl, forall₂_sameShape_iff.mpr hmembers, hrest⟩

/-! ## Groups that are not repeated -/

/-- No tree within the tree has two groups of one combinator. -/
inductive SingleGroups : Tree α → Prop where
  | intro {t : Tree α} (hgroups : ∀ c, (groups c t).length ≤ 1)
      (hchildren : ∀ c, ∀ child ∈ children c t, SingleGroups child) : SingleGroups t

namespace SingleGroups

theorem length_groups {t : Tree α} (h : SingleGroups t) (c : Combinator) :
    (groups c t).length ≤ 1 := by
  cases h with
  | intro hgroups _ => exact hgroups c

theorem of_mem_children {t child : Tree α} (h : SingleGroups t) {c : Combinator}
    (hchild : child ∈ children c t) : SingleGroups child := by
  cases h with
  | intro _ hchildren => exact hchildren c child hchild

/-- Leaving out leaves does not repeat a group. -/
theorem filterMap {t : Tree α} (h : SingleGroups t) (f : α → Option β) :
    SingleGroups (filterMap f t) := by
  induction h with
  | @intro t hgroups _ ih =>
    refine intro ?_ ?_
    · intro c
      rw [groups_filterMap, List.length_map]
      exact hgroups c
    · intro c child hchild
      rw [children_filterMap, List.mem_map] at hchild
      rcases hchild with ⟨inner, hinner, rfl⟩
      exact ih c inner hinner

/-- Nor does leaving out leaves join two groups. -/
theorem of_filterMap {t : Tree α} {f : α → Option β} (h : SingleGroups (Tree.filterMap f t)) :
    SingleGroups t := by
  induction t using induction with
  | step t ih =>
    refine intro ?_ ?_
    · intro c
      have hlength := h.length_groups c
      rw [groups_filterMap, List.length_map] at hlength
      exact hlength
    · intro c child hchild
      refine ih c child hchild (h.of_mem_children (c := c) ?_)
      rw [children_filterMap]
      exact List.mem_map_of_mem hchild

/-- Whether groups are repeated is a matter of the shape. -/
theorem of_sameShape {s : Tree α} {t : Tree β} (hshape : SameShape s t) (h : SingleGroups t) :
    SingleGroups s := by
  have hboth : SingleGroups (shape t) := h.filterMap _
  rw [← hshape] at hboth
  exact hboth.of_filterMap

end SingleGroups

/-! ## Putting trees together -/

/-- A value for each leaf at the top and a tree for each child make a tree of the same
shape. -/
theorem exists_assemble (t : Tree α) {tops : List β} {members : Combinator → List (Tree β)}
    (htops : tops.length = (topLeaves t).length)
    (hmembers : ∀ c, List.Forall₂ SameShape (members c) (children c t)) :
    ∃ s : Tree β, SameShape s t ∧ topLeaves s = tops ∧ ∀ c, children c s = members c := by
  induction t generalizing tops members with
  | nil =>
    refine ⟨[], rfl, ?_, ?_⟩
    · exact (List.eq_nil_of_length_eq_zero htops).symm
    · intro c
      have hnil := hmembers c
      rw [children_nil, List.forall₂_nil_right_iff] at hnil
      rw [hnil, children_nil]
  | cons condition rest ih =>
    cases condition with
    | leaf a =>
      obtain ⟨b, tops, rfl⟩ : ∃ b rest, tops = b :: rest := by
        refine List.exists_cons_of_ne_nil ?_
        rintro rfl
        simp [topLeaves] at htops
      rcases ih (Nat.succ.inj htops) hmembers with ⟨s, hshape, hs, hchildren⟩
      exact ⟨.leaf b :: s, hshape.leaf b a, by rw [topLeaves, hs], hchildren⟩
    | group d inner =>
      have hsplit := hmembers d
      rw [children_group, if_pos rfl] at hsplit
      -- the first group takes its children from the front
      obtain ⟨first, others, hfirst, hothers, heq⟩ : ∃ first others,
          List.Forall₂ SameShape first inner ∧
            List.Forall₂ SameShape others (children d rest) ∧ members d = first ++ others :=
        ⟨_, _, List.forall₂_take_append _ _ _ hsplit, List.forall₂_drop_append _ _ _ hsplit,
          (List.take_append_drop _ _).symm⟩
      have hrest (c : Combinator) : List.Forall₂ SameShape
          (if c = d then others else members c) (children c rest) := by
        by_cases hc : c = d
        · rw [if_pos hc, hc]
          exact hothers
        · have hother := hmembers c
          rw [children_group, if_neg fun heq => hc heq.symm] at hother
          rw [if_neg hc]
          exact hother
      rcases ih htops hrest with ⟨s, hshape, hs, hchildren⟩
      refine ⟨.group d first :: s, hshape.group hfirst d, hs, ?_⟩
      intro c
      rw [children_group, hchildren c]
      by_cases hc : c = d
      · rw [if_pos hc.symm, if_pos hc, hc, heq]
      · rw [if_neg fun heq => hc heq.symm, if_neg hc, List.nil_append]

/-- Two trees of the same shape are the two halves of a tree of pairs. -/
theorem exists_zip {s : Tree α} {t : Tree β} (h : SameShape s t) :
    ∃ z : Tree (α × β), map Prod.fst z = s ∧ map Prod.snd z = t := by
  induction t using conditionInduction generalizing s with
  | nil =>
    refine ⟨[], ?_, rfl⟩
    cases s with
    | nil => rfl
    | cons condition rest => cases condition <;> simp [SameShape, shape] at h
  | leaf b t ih =>
    rcases h.leaf_inv with ⟨a, rest, rfl, hrest⟩
    rcases ih hrest with ⟨z, rfl, rfl⟩
    exact ⟨.leaf (a, b) :: z, map_leaf .., map_leaf ..⟩
  | group c members t ihmembers ihrest =>
    rcases h.group_inv with ⟨ss, rest, rfl, hmembers, hrest⟩
    rcases ihrest hrest with ⟨z, rfl, rfl⟩
    obtain ⟨zs, rfl, rfl⟩ : ∃ zs : List (Tree (α × β)),
        zs.map (map Prod.fst) = ss ∧ zs.map (map Prod.snd) = members := by
      clear h ihrest hrest
      induction hmembers with
      | nil => exact ⟨[], rfl, rfl⟩
      | @cons s t ss ts hfirst _ ih =>
        rcases ihmembers t (List.mem_cons_self ..) hfirst with ⟨first, rfl, rfl⟩
        obtain ⟨zs, rfl, rfl⟩ := ih fun t ht _ hshape =>
          ihmembers t (List.mem_cons_of_mem _ ht) hshape
        exact ⟨first :: zs, rfl, rfl⟩
    exact ⟨.group c zs :: z, map_group .., map_group ..⟩

end GraphFilter.Tree
