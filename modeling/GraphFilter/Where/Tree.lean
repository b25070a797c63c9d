import GraphFilter.Where.Operator

/-!
# Trees of conditions

A tree is a list of conditions in input order.  A condition is a leaf or a group,
and the children of a group are trees again.  What a leaf holds is left open: the
same trees carry comparisons as they were read and predicates as they are written.
-/

namespace GraphFilter

/-! ## The type -/

/-- A leaf, or a group of trees under a combinator. -/
inductive Condition (α : Type) where
  | leaf (content : α)
  | group (combinator : Combinator) (children : List (List (Condition α)))
deriving Inhabited

/-- Conditions in input order. -/
abbrev Tree (α : Type) := List (Condition α)

namespace Tree

variable {α β : Type}

/-! ## Leaves in input order -/

mutual

/-- The leaves of a condition, depth first. -/
def conditionLeaves : Condition α → List α
  | .leaf a => [a]
  | .group _ children => childLeaves children

/-- The leaves of a tree, depth first. -/
def leaves : List (Condition α) → List α
  | [] => []
  | c :: rest => conditionLeaves c ++ leaves rest

/-- The leaves of the children of a group, depth first. -/
def childLeaves : List (List (Condition α)) → List α
  | [] => []
  | t :: rest => leaves t ++ childLeaves rest

end

/-- The leaves of joined trees. -/
@[simp]
theorem leaves_append (s t : Tree α) : leaves (s ++ t) = leaves s ++ leaves t := by
  induction s with
  | nil => simp [leaves]
  | cons c s ih => simp [leaves, ih]

/-- The leaves of joined rows of children. -/
@[simp]
theorem childLeaves_append (s t : List (Tree α)) :
    childLeaves (s ++ t) = childLeaves s ++ childLeaves t := by
  induction s with
  | nil => simp [childLeaves]
  | cons c s ih => simp [childLeaves, ih]

/-! ## Working through the leaves -/

variable {m : Type → Type} [Monad m]

mutual

/-- Work through the leaves of a condition; a leaf may be dropped, a group stays. -/
def filterMapCondition (f : α → m (Option β)) : Condition α → m (Option (Condition β))
  | .leaf a => do
    let b ← f a
    return b.map .leaf
  | .group c children => do
    let children ← filterMapChildren f children
    return some (.group c children)

/-- Work through the leaves of a tree in input order, replacing or dropping each.
Groups and their children stay, even if nothing is left in them. -/
def filterMapM (f : α → m (Option β)) : List (Condition α) → m (List (Condition β))
  | [] => return []
  | c :: rest => do
    let c ← filterMapCondition f c
    let rest ← filterMapM f rest
    return c.toList ++ rest

/-- Work through the leaves of the children of a group. -/
def filterMapChildren (f : α → m (Option β)) :
    List (List (Condition α)) → m (List (List (Condition β)))
  | [] => return []
  | t :: rest => do
    let t ← filterMapM f t
    let rest ← filterMapChildren f rest
    return t :: rest

end

/-! ## Adding conditions -/

/-- Add a leaf at the end. -/
def addLeaf (t : Tree α) (content : α) : Tree α :=
  t ++ [.leaf content]

/-- Adding a leaf adds its content behind all others. -/
@[simp]
theorem leaves_addLeaf (t : Tree α) (content : α) :
    leaves (addLeaf t content) = leaves t ++ [content] := by
  simp [addLeaf, leaves, conditionLeaves]

/-- Add a group of its own at the end. -/
def addGroup (t : Tree α) (c : Combinator) (children : List (Tree α)) : Tree α :=
  t ++ [.group c children]

/-- Add children to the first group of the combinator; only if there is none, a
group is added at the end.  So a tree that is built by this operation holds at most
one group of each combinator. -/
def addChildren (t : Tree α) (c : Combinator) (children : List (Tree α)) : Tree α :=
  match t with
  | [] => [.group c children]
  | .group d present :: rest =>
    if d = c then .group c (present ++ children) :: rest
    else .group d present :: addChildren rest c children
  | .leaf a :: rest => .leaf a :: addChildren rest c children

/-- Adding children adds their leaves. -/
theorem mem_leaves_addChildren (t : Tree α) (c : Combinator) (children : List (Tree α)) (a : α) :
    a ∈ leaves (addChildren t c children) ↔ a ∈ leaves t ∨ a ∈ childLeaves children := by
  induction t with
  | nil => simp [addChildren, leaves, conditionLeaves]
  | cons condition rest ih =>
    cases condition with
    | leaf b => simp [addChildren, leaves, conditionLeaves, ih, or_assoc]
    | group d present =>
      simp only [addChildren]
      split
      · simp only [leaves, conditionLeaves, childLeaves_append, List.mem_append]
        grind
      · simp only [leaves, List.mem_append, ih, or_assoc]

end Tree

end GraphFilter
