import GraphFilter.Filter.Decode
import GraphFilter.Proofs.Json.Records
import GraphFilter.Proofs.Tree.Shape

/-!
# Where objects that can be obtained

A where object is read from a text or built step by step.  Either way it never gets two
groups of one combinator: an object cannot hold the key of a group twice, and building
adds to the group that is there.

Main results:

- Theorem {lit}`Where.single_ofJson`: so it is with where objects of JSON values.
- Theorem {lit}`Where.Obtainable.single`: so it is with all where objects.
- Theorem {lit}`Where.Given.single`: so it is with those that are read as part of a filter.
-/

namespace GraphFilter

open Json (exists_of_bind_eq_ok)

/-- The where objects that are read from a text or built from these. -/
inductive Where.Obtainable : Where → Prop where
  | parsed {text : String} {w : Where} (h : Where.parse text = .ok w) : Obtainable w
  | empty : Obtainable Where.empty
  | compare {w : Where} (hw : Obtainable w) (field : String) (operator : Operator)
      (operand : Json.Value) : Obtainable (w.compare field operator operand)
  | isNull {w : Where} (hw : Obtainable w) (field : String) : Obtainable (w.isNull field)
  | and {w : Where} {children : List Where} (hw : Obtainable w)
      (hchildren : ∀ child ∈ children, Obtainable child) : Obtainable (w.and children)
  | or {w : Where} {children : List Where} (hw : Obtainable w)
      (hchildren : ∀ child ∈ children, Obtainable child) : Obtainable (w.or children)

/-! ## Building -/

namespace Tree

variable {α : Type}

theorem groups_append (c : Combinator) (s t : Tree α) :
    groups c (s ++ t) = groups c s ++ groups c t := by
  induction s with
  | nil => rfl
  | cons condition rest ih =>
    cases condition with
    | leaf a => exact ih
    | group d members =>
      rw [List.cons_append, groups, groups, ih]
      split <;> rfl

/-- The first group of the combinator takes the children, if there is one. -/
theorem groups_addChildren (d c : Combinator) (t : Tree α) (members : List (Tree α)) :
    groups d (addChildren t c members) =
      if c = d then
        match groups c t with
        | [] => [members]
        | first :: rest => (first ++ members) :: rest
      else groups d t := by
  induction t with
  | nil => simp [addChildren, groups]
  | cons condition rest ih =>
    cases condition with
    | leaf a => exact ih
    | group e present =>
      rw [addChildren]
      by_cases hec : e = c
      · rw [if_pos hec, hec, groups, groups, groups, if_pos rfl]
        by_cases hcd : c = d <;> simp [hcd]
      · rw [if_neg hec, groups, groups, groups, ih, if_neg hec]
        by_cases hcd : c = d
        · have hed : e ≠ d := fun heq => hec (heq.trans hcd.symm)
          rw [if_neg hed, if_pos hcd, if_pos hcd]
        · rw [if_neg hcd, if_neg hcd]

namespace SingleGroups

theorem empty : SingleGroups ([] : Tree α) := by
  refine intro ?_ ?_
  · intro c
    exact Nat.zero_le 1
  · intro c child hchild
    simp at hchild

theorem addLeaf {t : Tree α} (h : SingleGroups t) (a : α) : SingleGroups (addLeaf t a) := by
  have hgroups (c : Combinator) : groups c (Tree.addLeaf t a) = groups c t := by
    rw [Tree.addLeaf, groups_append, groups, groups, List.append_nil]
  refine intro ?_ ?_
  · intro c
    rw [hgroups]
    exact h.length_groups c
  · intro c child hchild
    rw [children, hgroups] at hchild
    exact h.of_mem_children hchild

/-- Children are added to the group that is there. -/
theorem addChildren {t : Tree α} (h : SingleGroups t) (c : Combinator)
    {members : List (Tree α)} (hmembers : ∀ child ∈ members, SingleGroups child) :
    SingleGroups (addChildren t c members) := by
  refine intro ?_ ?_
  · intro d
    rw [groups_addChildren]
    by_cases hcd : c = d
    · rw [if_pos hcd]
      have hlength := h.length_groups c
      cases hgroups : groups c t with
      | nil => exact Nat.le_refl 1
      | cons first rest =>
        rw [hgroups] at hlength
        exact hlength
    · rw [if_neg hcd]
      exact h.length_groups d
  · intro d child hchild
    rw [children, groups_addChildren, List.mem_flatten] at hchild
    rcases hchild with ⟨group, hgroup, hchild⟩
    have hold : ∀ inner ∈ groups d t, child ∈ inner → SingleGroups child := by
      intro inner hinner hmem
      exact h.of_mem_children (List.mem_flatten.mpr ⟨inner, hinner, hmem⟩)
    by_cases hcd : c = d
    · rw [if_pos hcd, hcd] at hgroup
      cases hgroups : groups d t with
      | nil =>
        rw [hgroups, List.mem_singleton] at hgroup
        rw [hgroup] at hchild
        exact hmembers child hchild
      | cons first rest =>
        rw [hgroups, List.mem_cons] at hgroup
        rw [hgroups] at hold
        rcases hgroup with rfl | hgroup
        · rw [List.mem_append] at hchild
          rcases hchild with hchild | hchild
          · exact hold first (List.mem_cons_self ..) hchild
          · exact hmembers child hchild
        · exact hold group (List.mem_cons_of_mem _ hgroup) hchild
    · rw [if_neg hcd] at hgroup
      exact hold group hgroup hchild

end SingleGroups

end Tree

/-! ## Reading -/

/-- A text of limited size that is read is read from its start. -/
theorem exists_of_readLimited {α : Type}
    {read : Json.Cursor → Except Json.Failure (α × Json.Cursor)} {text : String} {a : α}
    (h : readLimited read text = .ok a) : ∃ c, read (Json.Cursor.start text) = .ok (a, c) := by
  unfold readLimited at h
  split at h
  · cases h
  · split at h
    · rename_i hread
      cases h
      exact Json.exists_of_readWhole? hread
    · cases h

namespace Where

open GraphFilter.Tree (SingleGroups groups children)

/-- A member is a group of its key's combinator, or it is a leaf. -/
theorem ofMember_eq_ok {key : String} {value : Json.Value} {condition : Condition Comparison}
    (h : ofMember key value = .ok condition) :
    (∃ a, condition = .leaf a) ∨
      ∃ c items members, key = c.key ∧ value = .array items ∧ ofEntries key items = .ok members ∧
        condition = .group c members := by
  unfold ofMember at h
  split at h
  · rename_i items
    split at h
    · rename_i c hkey
      rcases exists_of_bind_eq_ok h with ⟨members, hmembers, h⟩
      cases h
      exact Or.inr ⟨c, items, members, Combinator.ofKey?_eq_some_iff.mp hkey, rfl, hmembers, rfl⟩
    · cases h
      exact Or.inl ⟨_, rfl⟩
  · split at h
    · cases h
    · cases h
      exact Or.inl ⟨_, rfl⟩

/-- A where object has at most as many groups of a combinator as the object has members of
its key. -/
theorem length_groups_ofMembers {members : List (String × Json.Value)} {w : Where}
    (h : ofMembers members = .ok w) (c : Combinator) :
    (groups c w).length ≤ (members.map Prod.fst).count c.key := by
  induction members generalizing w with
  | nil =>
    cases h
    exact Nat.le_refl 0
  | cons member rest ih =>
    rcases member with ⟨key, value⟩
    rcases exists_of_bind_eq_ok h with ⟨condition, hcondition, h⟩
    rcases exists_of_bind_eq_ok h with ⟨conditions, hconditions, h⟩
    cases h
    have hrest := ih hconditions
    rw [List.map_cons, List.count_cons]
    rcases ofMember_eq_ok hcondition with ⟨a, rfl⟩ | ⟨d, items, inner, rfl, -, -, rfl⟩
    · rw [groups]
      omega
    · rw [groups]
      by_cases hd : d = c
      · rw [if_pos hd, hd, List.length_cons]
        simp only [beq_self_eq_true, if_true]
        omega
      · rw [if_neg hd]
        omega

/-- The children of a where object are those of a member that is an array. -/
theorem exists_of_mem_children_ofMembers {members : List (String × Json.Value)} {w child : Where}
    (h : ofMembers members = .ok w) {c : Combinator} (hchild : child ∈ children c w) :
    ∃ key items inner, (key, Json.Value.array items) ∈ members ∧
      ofEntries key items = .ok inner ∧ child ∈ inner := by
  induction members generalizing w with
  | nil =>
    cases h
    simp at hchild
  | cons member rest ih =>
    rcases member with ⟨key, value⟩
    rcases exists_of_bind_eq_ok h with ⟨condition, hcondition, h⟩
    rcases exists_of_bind_eq_ok h with ⟨conditions, hconditions, h⟩
    cases h
    have hlater (hmem : child ∈ children c conditions) : ∃ key' items inner,
        (key', Json.Value.array items) ∈ (key, value) :: rest ∧
          ofEntries key' items = .ok inner ∧ child ∈ inner := by
      rcases ih hconditions hmem with ⟨key', items, inner, hmember, hentries⟩
      exact ⟨key', items, inner, List.mem_cons_of_mem _ hmember, hentries⟩
    rcases ofMember_eq_ok hcondition with ⟨a, rfl⟩ | ⟨d, items, inner, rfl, rfl, hentries, rfl⟩
    · exact hlater hchild
    · rw [Tree.children_group, List.mem_append] at hchild
      rcases hchild with hchild | hchild
      · split at hchild
        · exact ⟨_, items, inner, List.mem_cons_self .., hentries, hchild⟩
        · simp at hchild
      · exact hlater hchild

/-- The children of a group are the where objects of its entries. -/
theorem exists_of_mem_ofEntries {key : String} {items : List Json.Value} {inner : List Where}
    (h : ofEntries key items = .ok inner) {child : Where} (hchild : child ∈ inner) :
    ∃ item ∈ items, ofJson item = .ok child := by
  induction items generalizing inner with
  | nil =>
    cases h
    simp at hchild
  | cons item rest ih =>
    unfold ofEntries at h
    split at h
    · simp at *
    · rename_i members tail heq
      rcases List.cons.inj heq with ⟨rfl, rfl⟩
      rcases exists_of_bind_eq_ok h with ⟨first, hfirst, h⟩
      rcases exists_of_bind_eq_ok h with ⟨others, hothers, h⟩
      cases h
      rw [List.mem_cons] at hchild
      rcases hchild with rfl | hchild
      · exact ⟨_, List.mem_cons_self .., hfirst⟩
      · rcases ih hothers hchild with ⟨item, hitem, hjson⟩
        exact ⟨item, List.mem_cons_of_mem _ hitem, hjson⟩
    · cases h

/-- The where object of a value in which all keys are distinct has no group twice.  So it
is with the entries of an array, which is no where object itself. -/
theorem single_ofJson {v : Json.Value} (hkeys : v.DistinctKeys) :
    (∀ w, ofJson v = .ok w → SingleGroups w) ∧
      ∀ items, v = .array items → ∀ item ∈ items, ∀ w, ofJson item = .ok w → SingleGroups w := by
  induction hkeys with
  | null =>
    refine ⟨?_, nofun⟩
    intro w h
    cases h
    exact SingleGroups.empty
  | bool b => exact ⟨nofun, nofun⟩
  | number n => exact ⟨nofun, nofun⟩
  | string s => exact ⟨nofun, nofun⟩
  | array _ ih =>
    refine ⟨nofun, ?_⟩
    intro items heq item hitem
    cases heq
    exact (ih item hitem).1
  | @object members hnodup _ ih =>
    refine ⟨?_, nofun⟩
    intro w h
    refine SingleGroups.intro ?_ ?_
    · intro c
      have hcount := List.nodup_iff_count.mp hnodup c.key
      exact Nat.le_trans (length_groups_ofMembers h c) hcount
    · intro c child hchild
      obtain ⟨key, items, inner, hmember, hentries, hmem⟩ :=
        exists_of_mem_children_ofMembers h hchild
      rcases exists_of_mem_ofEntries hentries hmem with ⟨item, hitem, hjson⟩
      exact (ih _ hmember).2 items rfl item hitem child hjson

/-- A conversion does not change that. -/
theorem single_whereOfJson {v : Json.Value} (hkeys : v.DistinctKeys) {w : Where}
    (h : whereOfJson v = .ok w) : SingleGroups w := by
  unfold whereOfJson at h
  split at h
  · rename_i hjson
    cases h
    exact (single_ofJson hkeys).1 _ hjson
  · cases h

/-- Nor has one that was read from a text. -/
theorem single_parse {text : String} {w : Where} (h : Where.parse text = .ok w) :
    SingleGroups w := by
  rcases exists_of_readLimited h with ⟨c, hread⟩
  rcases Json.exists_of_readConverted hread with ⟨v, hkeys, hv⟩
  exact single_whereOfJson hkeys hv

/-- A where object that can be obtained has no group twice. -/
theorem Obtainable.single {w : Where} (h : w.Obtainable) : SingleGroups w := by
  induction h with
  | parsed h => exact single_parse h
  | empty => exact SingleGroups.empty
  | compare _ field operator operand ih => exact ih.addLeaf _
  | isNull _ field ih => exact ih.addLeaf _
  | and _ _ ihw ihchildren => exact ihw.addChildren .and ihchildren
  | or _ _ ihw ihchildren => exact ihw.addChildren .or ihchildren

end Where

/-! ## Filters -/

open GraphFilter.Tree (SingleGroups)

/-- A member of a filter does not bring in a where object with a group twice. -/
theorem FilterKey.single_read {depth : Nat} {key : FilterKey} {f f' : Filter}
    {c c' : Json.Cursor} (hf : ∀ w ∈ f.condition, SingleGroups w)
    (h : key.read depth f c = .ok (f', c')) : ∀ w ∈ f'.condition, SingleGroups w := by
  cases key with
  | condition =>
    rcases exists_of_bind_eq_ok h with ⟨⟨condition, next⟩, hread, h⟩
    rcases Json.exists_of_readConverted hread with ⟨v, hkeys, hv⟩
    cases h
    unfold optionalWhereOfJson at hv
    split at hv
    · cases hv
      simp
    · rcases Json.exists_of_map_eq_ok hv with ⟨w, hw, rfl⟩
      simpa using Where.single_whereOfJson hkeys hw
  | order | skip | limit | fields =>
    rcases exists_of_bind_eq_ok h with ⟨⟨value, next⟩, -, h⟩
    cases h
    exact hf

/-- The where object of a filter that was read has no group twice. -/
theorem Filter.single_parse {text : String} {f : Filter} (h : Filter.parse text = .ok f) :
    ∀ w ∈ f.condition, SingleGroups w := by
  rcases exists_of_readLimited h with ⟨c, hread⟩
  refine Json.Record.invariant_of_read (p := fun f : Filter => ∀ w ∈ f.condition, SingleGroups w)
    ?_ ?_ hread
  · simp [Filter.record, Filter.empty]
  · exact fun _ _ _ _ _ _ => FilterKey.single_read

namespace Where

/-- The where objects that filters can have: those of filters that are read, those that can
be obtained without a filter, and those built from these. -/
inductive Given : Where → Prop where
  | read {text : String} {f : Filter} {w : Where} (h : Filter.parse text = .ok f)
      (hw : w ∈ f.condition) : Given w
  | obtained {w : Where} (h : w.Obtainable) : Given w
  | compare {w : Where} (hw : Given w) (field : String) (operator : Operator)
      (operand : Json.Value) : Given (w.compare field operator operand)
  | isNull {w : Where} (hw : Given w) (field : String) : Given (w.isNull field)
  | and {w : Where} {children : List Where} (hw : Given w)
      (hchildren : ∀ child ∈ children, Given child) : Given (w.and children)
  | or {w : Where} {children : List Where} (hw : Given w)
      (hchildren : ∀ child ∈ children, Given child) : Given (w.or children)

/-- A where object of a filter has no group twice. -/
theorem Given.single {w : Where} (h : w.Given) : SingleGroups w := by
  induction h with
  | read h hw => exact Filter.single_parse h _ hw
  | obtained h => exact h.single
  | compare _ field operator operand ih => exact ih.addLeaf _
  | isNull _ field ih => exact ih.addLeaf _
  | and _ _ ihw ihchildren => exact ihw.addChildren .and ihchildren
  | or _ _ ihw ihchildren => exact ihw.addChildren .or ihchildren

end Where

end GraphFilter
