import GraphFilter.Param.Bindings
import Mathlib.Data.List.Perm.Basic
import Mathlib.Data.List.Nodup

/-!
# Bindings of distinct names

Binding a name replaces what the name was bound to before.  Where all names are
different nothing is replaced: the bindings are the given ones in another order.

Main results:

- Theorem {lit}`Bindings.ofList_perm`: distinct names are all bound, to the given
  values and to nothing else.
- Theorems {lit}`Bindings.union_perm` and {lit}`Bindings.foldl_union_perm`: joining bindings
  of distinct names loses none.
-/

namespace GraphFilter

/-! ## Sorted insertion -/

/-- A new key is added, wherever it goes. -/
theorem insertByKey_perm {α : Type} {key : String} {value : α} {entries : List (String × α)}
    (h : key ∉ entries.map Prod.fst) :
    (insertByKey key value entries).Perm ((key, value) :: entries) := by
  induction entries with
  | nil => exact List.Perm.refl _
  | cons entry rest ih =>
    rcases entry with ⟨k, v⟩
    rw [List.map_cons, List.mem_cons, not_or] at h
    rcases h with ⟨hne, hrest⟩
    unfold insertByKey
    by_cases hlt : key < k
    · rw [if_pos hlt]
    · rw [if_neg hlt, if_neg hne]
      exact ((ih hrest).cons (k, v)).trans (List.Perm.swap _ _ _)

/-- Among entries with distinct keys, a key finds its own value. -/
theorem lookup_of_mem {α : Type} {entries : List (String × α)} {key : String} {value : α}
    (hnodup : (entries.map Prod.fst).Nodup) (h : (key, value) ∈ entries) :
    entries.lookup key = some value := by
  rcases List.append_of_mem h with ⟨before, behind, rfl⟩
  rw [List.lookup_eq_some_iff]
  refine ⟨before, behind, rfl, ?_⟩
  intro entry hentry
  rw [List.map_append, List.nodup_append] at hnodup
  have hne := hnodup.2.2 entry.1 (List.mem_map_of_mem hentry) key (by simp)
  simpa using fun heq : key = entry.1 => hne heq.symm

namespace Bindings

/-! ## Binding distinct names -/

/-- Binding new and distinct names keeps what was bound before. -/
theorem insertAll_perm (b : Bindings) (entries : List (String × Param))
    (h : (b.names ++ entries.map Prod.fst).Nodup) :
    (b.insertAll entries).entries.Perm (b.entries ++ entries) := by
  induction entries generalizing b with
  | nil =>
    rw [List.append_nil]
    exact List.Perm.refl _
  | cons entry rest ih =>
    rcases entry with ⟨name, value⟩
    have hnew : name ∉ b.names := by
      intro hmem
      exact (List.nodup_append.mp h).2.2 name hmem name (by simp) rfl
    have hinsert : (b.insert name value).entries.Perm ((name, value) :: b.entries) :=
      insertByKey_perm hnew
    have hnodup : ((b.insert name value).names ++ rest.map Prod.fst).Nodup := by
      refine List.Perm.nodup (List.Perm.symm ?_) h
      exact ((hinsert.map Prod.fst).append_right _).trans List.perm_middle.symm
    have hrest := ih (b.insert name value) hnodup
    exact (hrest.trans (hinsert.append_right rest)).trans List.perm_middle.symm

/-- Bindings of distinct names hold the given entries. -/
theorem ofList_perm {entries : List (String × Param)} (h : (entries.map Prod.fst).Nodup) :
    (ofList entries).entries.Perm entries :=
  insertAll_perm empty entries h

/-- The union of bindings of distinct names holds the entries of both. -/
theorem union_perm {first second : Bindings} (h : (first.names ++ second.names).Nodup) :
    (first.union second).entries.Perm (first.entries ++ second.entries) :=
  insertAll_perm first second.entries h

/-- Joining bindings one after the other keeps all entries, if their names are distinct. -/
theorem foldl_union_perm (b : Bindings) {maps : List Bindings}
    (h : (b.names ++ maps.flatMap names).Nodup) :
    (maps.foldl union b).entries.Perm (b.entries ++ maps.flatMap entries) := by
  induction maps generalizing b with
  | nil =>
    rw [List.flatMap_nil, List.append_nil]
    exact List.Perm.refl _
  | cons first rest ih =>
    rw [List.flatMap_cons, ← List.append_assoc] at h ⊢
    have hfirst : (b.union first).entries.Perm (b.entries ++ first.entries) :=
      union_perm (List.nodup_append.mp h).1
    have hnames : (b.union first).names.Perm (b.names ++ first.names) := by
      have hmap := hfirst.map Prod.fst
      rwa [List.map_append] at hmap
    have hrest := ih (b.union first) ((hnames.append_right _).nodup_iff.mpr h)
    exact hrest.trans (hfirst.append_right _)

/-- Each of the given names is bound to its own value. -/
theorem get?_ofList {entries : List (String × Param)} {name : String} {value : Param}
    (hnodup : (entries.map Prod.fst).Nodup) (h : (name, value) ∈ entries) :
    (ofList entries).get? name = some value := by
  have hperm := ofList_perm hnodup
  refine lookup_of_mem ?_ (hperm.mem_iff.mpr h)
  exact (hperm.map Prod.fst).nodup_iff.mpr hnodup

/-- Where all names are different, the value of a name is what stands beside it. -/
theorem get?_eq_some_iff {b : Bindings} (hnodup : b.names.Nodup) {name : String} {value : Param} :
    b.get? name = some value ↔ (name, value) ∈ b.entries := by
  refine ⟨?_, lookup_of_mem hnodup⟩
  intro h
  rcases List.lookup_eq_some_iff.mp h with ⟨before, behind, heq, -⟩
  rw [heq]
  simp

/-- The names are those that have a value. -/
theorem mem_names_iff {b : Bindings} (hnodup : b.names.Nodup) {name : String} :
    name ∈ b.names ↔ ∃ value, b.get? name = some value := by
  constructor
  · intro h
    rcases List.mem_map.mp h with ⟨⟨_, value⟩, hentry, rfl⟩
    exact ⟨value, (get?_eq_some_iff hnodup).mpr hentry⟩
  · rintro ⟨value, hvalue⟩
    exact List.mem_map_of_mem ((get?_eq_some_iff hnodup).mp hvalue)

end Bindings

end GraphFilter
