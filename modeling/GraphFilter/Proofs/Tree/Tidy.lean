import GraphFilter.Proofs.Tree.Shape

/-!
# Trees without empty parts

Leaving out leaves may leave children without conditions and groups without children.
Tidying a tree removes these from the inside out.  It neither removes nor moves a leaf,
and it does not matter whether a tree is tidied before or after its leaves are worked
through.

Main results:

- Theorem {lit}`leaves_tidy`: all leaves stay, in input order.
- Theorem {lit}`groups_tidy`: a group keeps the children in which a leaf is left.
- Theorem {lit}`tidy_filterMapM_tidy`: tidying first makes no difference to a tree that is
  tidied in the end.
-/

namespace GraphFilter.Tree

variable {α β : Type} {m : Type → Type} [Monad m]

/-! ## Tidying -/

/-- A group of its own, unless it has no children. -/
def groupOf (c : Combinator) : List (Tree α) → Tree α
  | [] => []
  | members => [.group c members]

mutual

/-- What is left of a condition. -/
def tidyCondition : Condition α → List (Condition α)
  | .leaf a => [.leaf a]
  | .group c members => groupOf c (tidyChildren members)

/-- A tree without children that have no conditions and groups that have no children. -/
def tidy : List (Condition α) → List (Condition α)
  | [] => []
  | c :: rest => tidyCondition c ++ tidy rest

/-- The children of a group that still have conditions. -/
def tidyChildren : List (List (Condition α)) → List (List (Condition α))
  | [] => []
  | t :: rest =>
    let t := tidy t
    if t.isEmpty then tidyChildren rest else t :: tidyChildren rest

end

@[simp]
theorem tidy_nil : tidy ([] : Tree α) = [] :=
  rfl

@[simp]
theorem tidy_leaf (a : α) (rest : Tree α) : tidy (.leaf a :: rest) = .leaf a :: tidy rest :=
  rfl

@[simp]
theorem tidy_group (c : Combinator) (members : List (Tree α)) (rest : Tree α) :
    tidy (.group c members :: rest) = groupOf c (tidyChildren members) ++ tidy rest :=
  rfl

/-- A child without conditions is removed. -/
theorem tidyChildren_of_eq_nil {t : Tree α} (h : tidy t = []) (rest : List (Tree α)) :
    tidyChildren (t :: rest) = tidyChildren rest := by
  simp [tidyChildren, h]

/-- Every other child stays. -/
theorem tidyChildren_of_ne_nil {t : Tree α} (h : tidy t ≠ []) (rest : List (Tree α)) :
    tidyChildren (t :: rest) = tidy t :: tidyChildren rest := by
  simp [tidyChildren, h]

/-- The children that are left are tidied. -/
theorem exists_of_mem_tidyChildren {members : List (Tree α)} {child : Tree α}
    (h : child ∈ tidyChildren members) : ∃ inner ∈ members, tidy inner = child := by
  induction members with
  | nil => simp [tidyChildren] at h
  | cons t rest ih =>
    by_cases ht : tidy t = []
    · rw [tidyChildren_of_eq_nil ht] at h
      rcases ih h with ⟨inner, hinner, heq⟩
      exact ⟨inner, List.mem_cons_of_mem _ hinner, heq⟩
    · rw [tidyChildren_of_ne_nil ht, List.mem_cons] at h
      rcases h with rfl | h
      · exact ⟨t, List.mem_cons_self .., rfl⟩
      · rcases ih h with ⟨inner, hinner, heq⟩
        exact ⟨inner, List.mem_cons_of_mem _ hinner, heq⟩

/-! ## Parts of a tidied tree -/

/-- The leaves of a group are those of its children. -/
theorem leaves_groupOf (c : Combinator) (members : List (Tree α)) :
    leaves (groupOf c members) = childLeaves members := by
  cases members with
  | nil => rfl
  | cons t rest => simp [groupOf, leaves, conditionLeaves]

/-- Tidying keeps the leaves, in input order. -/
@[simp]
theorem leaves_tidy (t : Tree α) : leaves (tidy t) = leaves t := by
  induction t using conditionInduction with
  | nil => rfl
  | leaf a rest ih => rw [tidy_leaf, leaves, ih, leaves]
  | group c members rest ihmembers ihrest =>
    have hmembers : childLeaves (tidyChildren members) = childLeaves members := by
      induction members with
      | nil => rfl
      | cons t members ih =>
        have ht := ihmembers t (List.mem_cons_self ..)
        have htail := ih fun child hchild => ihmembers child (List.mem_cons_of_mem _ hchild)
        by_cases hempty : tidy t = []
        · rw [hempty] at ht
          rw [tidyChildren_of_eq_nil hempty, htail, childLeaves, ← ht]
          rfl
        · rw [tidyChildren_of_ne_nil hempty, childLeaves, childLeaves, ht, htail]
    rw [tidy_group, leaves_append, leaves_groupOf, hmembers, ihrest, leaves, conditionLeaves]

@[simp]
theorem topLeaves_tidy (t : Tree α) : topLeaves (tidy t) = topLeaves t := by
  induction t with
  | nil => rfl
  | cons condition rest ih =>
    cases condition with
    | leaf a => rw [tidy_leaf, topLeaves, topLeaves, ih]
    | group c members =>
      rw [tidy_group, topLeaves, ← ih]
      cases tidyChildren members <;> rfl

/-- The groups of a tidied tree are those in which a child is left. -/
theorem groups_tidy (c : Combinator) (t : Tree α) :
    groups c (tidy t) = ((groups c t).map tidyChildren).filter fun members => !members.isEmpty := by
  induction t with
  | nil => rfl
  | cons condition rest ih =>
    cases condition with
    | leaf a => exact ih
    | group d members =>
      rw [tidy_group, groups]
      by_cases hd : d = c
      · rw [if_pos hd, List.map_cons]
        cases hmembers : tidyChildren members with
        | nil => exact ih
        | cons t others =>
          rw [List.filter_cons_of_pos rfl, ← ih]
          exact if_pos hd
      · rw [if_neg hd, ← ih]
        cases tidyChildren members with
        | nil => rfl
        | cons t others => exact if_neg hd

/-- Tidying does not repeat a group. -/
theorem SingleGroups.tidy {t : Tree α} (h : SingleGroups t) : SingleGroups (tidy t) := by
  induction h with
  | @intro t hgroups _ ih =>
    refine intro ?_ ?_
    · intro c
      have hle := List.length_filter_le (fun members : List (Tree α) => !members.isEmpty)
        ((groups c t).map tidyChildren)
      rw [List.length_map] at hle
      rw [groups_tidy]
      exact Nat.le_trans hle (hgroups c)
    · intro c child hchild
      rw [children, groups_tidy, List.mem_flatten] at hchild
      rcases hchild with ⟨members, hmembers, hchild⟩
      rcases List.mem_map.mp (List.mem_filter.mp hmembers).1 with ⟨group, hgroup, rfl⟩
      rcases exists_of_mem_tidyChildren hchild with ⟨inner, hinner, rfl⟩
      exact ih c inner (List.mem_flatten.mpr ⟨group, hgroup, hinner⟩)

/-! ## Traversals of tidied trees -/

variable [LawfulMonad m]

/-- Working through a group and what stands behind it, if the result is tidied. -/
theorem tidy_filterMapM_groupOf (f : α → m (Option β)) (c : Combinator) (members : List (Tree α))
    (rest : Tree α) :
    tidy <$> filterMapM f (groupOf c members ++ rest) = do
      let members ← tidyChildren <$> filterMapChildren f members
      let rest ← tidy <$> filterMapM f rest
      return groupOf c members ++ rest := by
  cases members with
  | nil => simp [groupOf, filterMapChildren, tidyChildren]
  | cons t members =>
    rw [groupOf, List.singleton_append, filterMapM_group]
    · simp
    · simp

/-- Tidying first makes no difference to a tree that is tidied in the end. -/
theorem tidy_filterMapM_tidy (f : α → m (Option β)) (t : Tree α) :
    tidy <$> filterMapM f (tidy t) = tidy <$> filterMapM f t := by
  induction t using conditionInduction with
  | nil => rfl
  | leaf a rest ih =>
    have hleaf (rest : Tree α) : tidy <$> filterMapM f (.leaf a :: rest) = do
        let b ← f a
        let rest ← tidy <$> filterMapM f rest
        return (b.map .leaf).toList ++ rest := by
      rw [filterMapM_leaf, map_bind]
      refine bind_congr fun b => ?_
      cases b <;> simp
    rw [tidy_leaf, hleaf, hleaf, ih]
  | group c members rest ihmembers ihrest =>
    have hmembers : tidyChildren <$> filterMapChildren f (tidyChildren members) =
        tidyChildren <$> filterMapChildren f members := by
      induction members with
      | nil => rfl
      | cons t members ih =>
        have ht := ihmembers t (List.mem_cons_self ..)
        have htail := ih fun child hchild => ihmembers child (List.mem_cons_of_mem _ hchild)
        -- the first child only matters through what is left of it
        have hcons (t : Tree α) (members : List (Tree α)) :
            tidyChildren <$> filterMapChildren f (t :: members) = do
              let t ← tidy <$> filterMapM f t
              let rest ← tidyChildren <$> filterMapChildren f members
              return if t.isEmpty then rest else t :: rest := by
          simp [filterMapChildren, tidyChildren]
        rw [hcons t, ← ht, ← htail]
        by_cases hempty : tidy t = []
        · rw [tidyChildren_of_eq_nil hempty, hempty]
          simp [filterMapM_nil]
        · rw [tidyChildren_of_ne_nil hempty, hcons]
    have hgroup : tidy <$> filterMapM f (.group c members :: rest) = do
        let members ← tidyChildren <$> filterMapChildren f members
        let rest ← tidy <$> filterMapM f rest
        return groupOf c members ++ rest := by
      simp [filterMapM_group]
    rw [tidy_group, tidy_filterMapM_groupOf, hmembers, ihrest, hgroup]

end GraphFilter.Tree
