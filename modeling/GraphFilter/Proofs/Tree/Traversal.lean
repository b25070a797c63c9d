import GraphFilter.Proofs.Tree.Children

/-!
# Working through the leaves of a tree

Dropping or replacing the leaves of a tree keeps its groups and their children.
So a traversal can be understood in two halves: what it does to the row of leaves,
one after the other in input order, and what the tree around them becomes, which
does not depend on the effects on the way.

Main results:

- Theorem {lit}`leaves_filterMapM`: the leaves that are left are those of working
  through the row of leaves.
- Theorem {lit}`map_run_filterMapM`: a part of the result that does not depend on
  the state can be computed without it.
- Theorem {lit}`filterMapM_lift_reports`: two traversals that agree leaf by leaf agree,
  and what they report on the leaves comes in input order.
-/

namespace GraphFilter.Tree

variable {α β γ : Type} {m : Type → Type} [Monad m]

/-! ## The three cases of a traversal -/

theorem filterMapM_nil (f : α → m (Option β)) : filterMapM f [] = pure [] :=
  rfl

theorem filterMapM_leaf [LawfulMonad m] (f : α → m (Option β)) (a : α) (rest : Tree α) :
    filterMapM f (.leaf a :: rest) = do
      let b ← f a
      let rest ← filterMapM f rest
      return (b.map .leaf).toList ++ rest := by
  simp [filterMapM, filterMapCondition]

theorem filterMapM_group [LawfulMonad m] (f : α → m (Option β)) (c : Combinator)
    (members : List (Tree α)) (rest : Tree α) :
    filterMapM f (.group c members :: rest) = do
      let members ← filterMapChildren f members
      let rest ← filterMapM f rest
      return .group c members :: rest := by
  simp [filterMapM, filterMapCondition]

/-! ## Pure traversals -/

/-- Replace each leaf, or drop it. -/
def filterMap (f : α → Option β) (t : Tree α) : Tree β :=
  Id.run (filterMapM (fun a => pure (f a)) t)

/-- Replace each leaf. -/
def map (f : α → β) (t : Tree α) : Tree β :=
  filterMap (fun a => some (f a)) t

@[simp]
theorem filterMap_nil (f : α → Option β) : filterMap f [] = [] :=
  rfl

@[simp]
theorem filterMap_leaf (f : α → Option β) (a : α) (rest : Tree α) :
    filterMap f (.leaf a :: rest) = ((f a).map .leaf).toList ++ filterMap f rest := by
  rw [filterMap, filterMapM_leaf]
  rfl

@[simp]
theorem filterMap_group (f : α → Option β) (c : Combinator) (members : List (Tree α))
    (rest : Tree α) :
    filterMap f (.group c members :: rest) =
      .group c (members.map (filterMap f)) :: filterMap f rest := by
  have hmembers : Id.run (filterMapChildren (fun a => pure (f a)) members) =
      members.map (filterMap f) := by
    induction members with
    | nil => rfl
    | cons t members ih =>
      rw [List.map_cons, ← ih]
      rfl
  rw [filterMap, filterMapM_group, ← hmembers]
  rfl

@[simp]
theorem map_nil (f : α → β) : map f [] = [] :=
  rfl

@[simp]
theorem map_leaf (f : α → β) (a : α) (rest : Tree α) :
    map f (.leaf a :: rest) = .leaf (f a) :: map f rest := by
  simp [map]

@[simp]
theorem map_group (f : α → β) (c : Combinator) (members : List (Tree α)) (rest : Tree α) :
    map f (.group c members :: rest) = .group c (members.map (map f)) :: map f rest :=
  filterMap_group _ _ _ _

/-! ## Parts of the result -/

@[simp]
theorem topLeaves_filterMap (f : α → Option β) (t : Tree α) :
    topLeaves (filterMap f t) = (topLeaves t).filterMap f := by
  induction t with
  | nil => rfl
  | cons condition rest ih =>
    cases condition with
    | leaf a =>
      rw [filterMap_leaf, topLeaves, List.filterMap_cons, ← ih]
      cases f a <;> rfl
    | group c members => rw [filterMap_group, topLeaves, topLeaves, ih]

@[simp]
theorem children_filterMap (c : Combinator) (f : α → Option β) (t : Tree α) :
    children c (filterMap f t) = (children c t).map (filterMap f) := by
  induction t with
  | nil => rfl
  | cons condition rest ih =>
    cases condition with
    | leaf a =>
      rw [filterMap_leaf, children_leaf, ← ih]
      cases f a <;> rfl
    | group d members =>
      rw [filterMap_group, children_group, children_group, ih, List.map_append]
      split <;> rfl

/-- Text order is kept. -/
theorem textLeaves_filterMap (f : α → Option β) (t : Tree α) :
    textLeaves (filterMap f t) = (textLeaves t).filterMap f := by
  induction t using induction with
  | step t ih =>
    have hgroup (c : Combinator) :
        (children c (filterMap f t)).flatMap textLeaves =
          ((children c t).flatMap textLeaves).filterMap f := by
      rw [children_filterMap, List.flatMap_map, List.filterMap_flatMap]
      exact List.flatMap_congr fun child hchild => ih c child hchild
    rw [textLeaves_eq, textLeaves_eq, hgroup, hgroup, topLeaves_filterMap, List.filterMap_append,
      List.filterMap_append]

/-- Replacing leaves replaces those at the top. -/
theorem topLeaves_map (f : α → β) (t : Tree α) :
    topLeaves (map f t) = (topLeaves t).map f := by
  rw [map, topLeaves_filterMap, List.filterMap_eq_map']

/-- Replacing leaves keeps text order. -/
theorem textLeaves_map (f : α → β) (t : Tree α) :
    textLeaves (map f t) = (textLeaves t).map f := by
  rw [map, textLeaves_filterMap, List.filterMap_eq_map']

/-! ## Traversals in a row -/

/-- Working through the leaves that were kept by a replacement before. -/
theorem filterMapM_filterMap [LawfulMonad m] (g : α → Option β) (f : β → m (Option γ))
    (t : Tree α) : filterMapM f (filterMap g t) = filterMapM (fun a => (g a).elim (pure none) f) t := by
  induction t using conditionInduction with
  | nil => rfl
  | leaf a rest ih =>
    rw [filterMap_leaf, filterMapM_leaf, ← ih]
    cases g a with
    | none => simp
    | some b => simp [filterMapM_leaf]
  | group c members rest ihmembers ihrest =>
    have hmembers : filterMapChildren f (members.map (filterMap g)) =
        filterMapChildren (fun a => (g a).elim (pure none) f) members := by
      induction members with
      | nil => rfl
      | cons t members ih =>
        have ht := ihmembers t (List.mem_cons_self ..)
        have htail := ih fun child hchild => ihmembers child (List.mem_cons_of_mem _ hchild)
        rw [List.map_cons, filterMapChildren, filterMapChildren, ht, htail]
    rw [filterMap_group, filterMapM_group, filterMapM_group, hmembers, ihrest]

/-- Two traversals in a row are one. -/
theorem filterMap_filterMap (f : α → Option β) (g : β → Option γ) (t : Tree α) :
    filterMap g (filterMap f t) = filterMap (fun a => (f a).bind g) t := by
  have helim : (fun a => (f a).elim (pure none) fun b => pure (g b)) =
      fun a => (pure ((f a).bind g) : Id (Option γ)) := by
    funext a
    cases f a <;> rfl
  rw [filterMap, filterMapM_filterMap, helim]
  rfl

/-- Replacing leaves after a traversal is part of the traversal. -/
theorem map_filterMapM [LawfulMonad m] (f : α → m (Option β)) (g : β → γ) (t : Tree α) :
    map g <$> filterMapM f t = filterMapM (fun a => Option.map g <$> f a) t := by
  induction t using conditionInduction with
  | nil => simp [filterMapM_nil]
  | leaf a rest ih =>
    rw [filterMapM_leaf, filterMapM_leaf, ← ih, map_bind, bind_map_left]
    refine bind_congr fun b => ?_
    cases b <;> simp
  | group c members rest ihmembers ihrest =>
    have hmembers : List.map (map g) <$> filterMapChildren f members =
        filterMapChildren (fun a => Option.map g <$> f a) members := by
      induction members with
      | nil => simp [filterMapChildren]
      | cons t members ih =>
        have ht := ihmembers t (List.mem_cons_self ..)
        have htail := ih fun child hchild => ihmembers child (List.mem_cons_of_mem _ hchild)
        rw [filterMapChildren, filterMapChildren, ← ht, ← htail]
        simp
    rw [filterMapM_group, filterMapM_group, ← hmembers, ← ihrest]
    simp

/-- Trees whose leaves look alike are worked through alike, if each leaf is worked through
as it looks. -/
theorem filterMapM_congr [LawfulMonad m] {f : α → m (Option β)} {look : α → γ}
    (hf : ∀ a b, look a = look b → f a = f b) {s t : Tree α} (h : map look s = map look t) :
    filterMapM f s = filterMapM f t := by
  have hnonempty : Nonempty (m (Option β)) := ⟨pure none⟩
  obtain ⟨g, rfl⟩ := (Function.factorsThrough_iff f).mp fun a b => hf a b
  have hlook (t : Tree α) : filterMapM g (map look t) = filterMapM (g ∘ look) t :=
    filterMapM_filterMap (fun a => some (look a)) g t
  rw [← hlook, ← hlook, h]

/-- Steps that agree on the leaves of a tree work through it alike. -/
theorem filterMapM_congr_leaves [LawfulMonad m] {f g : α → m (Option β)} {t : Tree α}
    (h : ∀ a ∈ leaves t, f a = g a) : filterMapM f t = filterMapM g t := by
  induction t using conditionInduction with
  | nil => rfl
  | leaf a rest ih =>
    simp only [leaves, conditionLeaves, List.singleton_append, List.forall_mem_cons] at h
    rw [filterMapM_leaf, filterMapM_leaf, h.1, ih h.2]
  | group c members rest ihmembers ihrest =>
    simp only [leaves, conditionLeaves, List.forall_mem_append] at h
    have hmembers : filterMapChildren f members = filterMapChildren g members := by
      replace h := h.1
      induction members with
      | nil => rfl
      | cons t members ih =>
        simp only [childLeaves, List.forall_mem_append] at h
        have ht := ihmembers t (List.mem_cons_self ..) h.1
        have htail := ih (fun child hchild => ihmembers child (List.mem_cons_of_mem _ hchild)) h.2
        rw [filterMapChildren, filterMapChildren, ht, htail]
    rw [filterMapM_group, filterMapM_group, hmembers, ihrest h.2]

/-! ## The row of leaves -/

/-- Working through two rows is working through the joined row. -/
theorem filterMapM_append [LawfulMonad m] (f : α → m (Option β)) (s t : List α) :
    (s ++ t).filterMapM f = do
      let s ← s.filterMapM f
      let t ← t.filterMapM f
      return s ++ t := by
  induction s with
  | nil => simp
  | cons a s ih =>
    rw [List.cons_append, List.filterMapM_cons, List.filterMapM_cons, bind_assoc]
    refine bind_congr fun b => ?_
    cases b with
    | none => exact ih
    | some b => simp [ih]

/-- The leaves that are left of a tree are those that are left of its row of leaves. -/
theorem leaves_filterMapM [LawfulMonad m] (f : α → m (Option β)) (t : Tree α) :
    leaves <$> filterMapM f t = (leaves t).filterMapM f := by
  induction t using conditionInduction with
  | nil => simp [filterMapM_nil, leaves]
  | leaf a rest ih =>
    rw [filterMapM_leaf, leaves, conditionLeaves, List.singleton_append, List.filterMapM_cons,
      map_bind]
    refine bind_congr fun b => ?_
    cases b with
    | none => simpa using ih
    | some b => simp [← ih, leaves, conditionLeaves]
  | group c members rest ihmembers ihrest =>
    have hmembers : childLeaves <$> filterMapChildren f members =
        (childLeaves members).filterMapM f := by
      induction members with
      | nil => simp [filterMapChildren, childLeaves]
      | cons t members ih =>
        have ht := ihmembers t (List.mem_cons_self ..)
        have htail := ih fun child hchild => ihmembers child (List.mem_cons_of_mem _ hchild)
        rw [childLeaves, filterMapM_append, ← ht, ← htail]
        simp [filterMapChildren, childLeaves]
    rw [filterMapM_group, leaves, conditionLeaves, filterMapM_append, ← hmembers, ← ihrest]
    simp [leaves, conditionLeaves]

@[simp]
theorem leaves_filterMap (f : α → Option β) (t : Tree α) :
    leaves (filterMap f t) = (leaves t).filterMap f := by
  have hrow (as : List α) : Id.run (as.filterMapM fun a => pure (f a)) = as.filterMap f := by
    induction as with
    | nil => rfl
    | cons a as ih =>
      rw [List.filterMapM_cons, List.filterMap_cons, ← ih]
      cases f a <;> rfl
  rw [← hrow]
  exact congrArg Id.run (leaves_filterMapM (fun a => (pure (f a) : Id (Option β))) t)

/-- Replacing leaves keeps input order. -/
theorem leaves_map (f : α → β) (t : Tree α) : leaves (map f t) = (leaves t).map f := by
  rw [map, leaves_filterMap, List.filterMap_eq_map']

/-! ## Results without effects -/

/-- A step goes on from the state that the step before it left. -/
theorem run_bind {σ δ ε : Type} (x : StateM σ δ) (k : δ → StateM σ ε) (s : σ) :
    (x >>= k).run s = (k (x.run s).1).run (x.run s).2 :=
  rfl

/-- If a part of each new leaf does not depend on the state, the same part of the
new tree does not either. -/
theorem map_run_filterMapM {σ : Type} {f : α → StateM σ (Option β)} {part : β → γ}
    {g : α → Option γ} (h : ∀ a s, ((f a).run s).1.map part = g a) (t : Tree α) (s : σ) :
    map part ((filterMapM f t).run s).1 = filterMap g t := by
  induction t using conditionInduction generalizing s with
  | nil => rfl
  | leaf a rest ih =>
    have hrest := ih ((f a).run s).2
    rw [filterMapM_leaf, filterMap_leaf, ← h a s, ← hrest, run_bind, run_bind]
    cases ((f a).run s).1 with
    | none => rfl
    | some b => exact map_leaf part b _
  | group c members rest ihmembers ihrest =>
    have hmembers (s : σ) : ((filterMapChildren f members).run s).1.map (map part) =
        members.map (filterMap g) := by
      induction members generalizing s with
      | nil => rfl
      | cons t members ih =>
        have ht := ihmembers t (List.mem_cons_self ..) s
        have htail := ih (fun child hchild => ihmembers child (List.mem_cons_of_mem _ hchild))
          ((filterMapM f t).run s).2
        rw [List.map_cons, ← ht, ← htail, filterMapChildren, run_bind, run_bind]
        rfl
    have hrest := ihrest ((filterMapChildren f members).run s).2
    rw [filterMapM_group, filterMap_group, ← hmembers s, ← hrest, run_bind, run_bind]
    exact map_group part c _ _

/-- Traversals that agree leaf by leaf, up to what they report on the leaves, agree on
trees up to the reports on all leaves in input order, for each notion of agreement that
steps in a row respect. -/
theorem filterMapM_lift_reports {κ : Type} {n : Type → Type} [Monad n] [LawfulMonad m]
    [LawfulMonad n] (agree : ∀ {δ : Type}, m δ → n δ → List κ → Prop) (report : α → List κ)
    {f : α → m (Option β)} {g : α → n (Option β)}
    (hpure : ∀ {δ : Type} (x : δ), agree (pure x : m δ) (pure x) [])
    (hbind : ∀ {δ ε : Type} {x : m δ} {y : n δ} {k : δ → m ε} {l : δ → n ε} {ks ls : List κ},
      agree x y ks → (∀ a, agree (k a) (l a) ls) → agree (x >>= k) (y >>= l) (ks ++ ls))
    (h : ∀ a, agree (f a) (g a) (report a)) (t : Tree α) :
    agree (filterMapM f t) (filterMapM g t) ((leaves t).flatMap report) := by
  -- a last step that reports nothing
  have hmap {δ ε : Type} {x : m δ} {y : n δ} {ks : List κ} (k : δ → ε) (hx : agree x y ks) :
      agree (x >>= fun a => pure (k a)) (y >>= fun a => pure (k a)) ks := by
    have hboth := hbind hx fun a => hpure (k a)
    rwa [List.append_nil] at hboth
  induction t using conditionInduction with
  | nil => exact hpure []
  | leaf a rest ih =>
    rw [filterMapM_leaf, filterMapM_leaf]
    exact hbind (h a) fun b => hmap _ ih
  | group c members rest ihmembers ihrest =>
    have hmembers : agree (filterMapChildren f members) (filterMapChildren g members)
        ((childLeaves members).flatMap report) := by
      induction members with
      | nil => exact hpure []
      | cons t members ih =>
        have ht := ihmembers t (List.mem_cons_self ..)
        have htail := ih fun child hchild => ihmembers child (List.mem_cons_of_mem _ hchild)
        rw [childLeaves, List.flatMap_append]
        exact hbind ht fun t => hmap _ htail
    rw [filterMapM_group, filterMapM_group, leaves, conditionLeaves, List.flatMap_append]
    exact hbind hmembers fun members => hmap _ ihrest

/-- Traversals that agree leaf by leaf agree on trees, for each notion of agreement
that steps in a row respect. -/
theorem filterMapM_lift {n : Type → Type} [Monad n] [LawfulMonad m] [LawfulMonad n]
    (agree : ∀ {δ : Type}, m δ → n δ → Prop) {f : α → m (Option β)} {g : α → n (Option β)}
    (hpure : ∀ {δ : Type} (x : δ), agree (pure x : m δ) (pure x))
    (hbind : ∀ {δ ε : Type} {x : m δ} {y : n δ} {k : δ → m ε} {l : δ → n ε},
      agree x y → (∀ a, agree (k a) (l a)) → agree (x >>= k) (y >>= l))
    (h : ∀ a, agree (f a) (g a)) (t : Tree α) : agree (filterMapM f t) (filterMapM g t) :=
  filterMapM_lift_reports (fun x y _ => agree x y) (fun _ => ([] : List Empty)) hpure hbind h t

end GraphFilter.Tree
