import GraphFilter.Param.Bindings

/-!
# Names without values

Which names are bound, and in which order, depends on the names that are given.  The
values have no influence.

Main results:

- Theorems {lit}`Bindings.names_ofList_congr` and {lit}`Bindings.names_union_congr`:
  bindings of the same names, whatever their values.
-/

namespace GraphFilter

/-- The place of a key does not depend on the values. -/
theorem keys_insertByKey_congr {α : Type} (key : String) (v w : α) {es fs : List (String × α)}
    (h : es.map Prod.fst = fs.map Prod.fst) :
    (insertByKey key v es).map Prod.fst = (insertByKey key w fs).map Prod.fst := by
  induction es generalizing fs with
  | nil =>
    rw [List.map_nil, eq_comm, List.map_eq_nil_iff] at h
    rw [h]
    rfl
  | cons e es ih =>
    rcases List.map_eq_cons_iff.mp h.symm with ⟨f, fs, rfl, hkey, hrest⟩
    have htail := ih hrest.symm
    rcases e with ⟨k, v'⟩
    rcases f with ⟨k', w'⟩
    cases hkey
    unfold insertByKey
    split
    · simp [hrest]
    · split <;> simp [hrest, htail]

namespace Bindings

theorem names_insertAll_congr {b c : Bindings} {es fs : List (String × Param)}
    (hnames : b.names = c.names) (h : es.map Prod.fst = fs.map Prod.fst) :
    (b.insertAll es).names = (c.insertAll fs).names := by
  induction es generalizing b c fs with
  | nil =>
    rw [List.map_nil, eq_comm, List.map_eq_nil_iff] at h
    rw [h]
    exact hnames
  | cons e es ih =>
    rcases List.map_eq_cons_iff.mp h.symm with ⟨f, fs, rfl, hkey, hrest⟩
    have hinsert : (b.insert e.1 e.2).names = (c.insert f.1 f.2).names := by
      rw [hkey]
      exact keys_insertByKey_congr e.1 e.2 f.2 hnames
    have htail : ((b.insert e.1 e.2).insertAll es).names =
        ((c.insert f.1 f.2).insertAll fs).names :=
      ih hinsert hrest.symm
    exact htail

/-- The names of bindings are decided by the names that are given. -/
theorem names_ofList_congr {es fs : List (String × Param)}
    (h : es.map Prod.fst = fs.map Prod.fst) : (ofList es).names = (ofList fs).names :=
  names_insertAll_congr rfl h

/-- The names of joined bindings are decided by the names of both. -/
theorem names_union_congr {b c b' c' : Bindings} (h : b.names = c.names)
    (h' : b'.names = c'.names) : (b.union b').names = (c.union c').names :=
  names_insertAll_congr h h'

end Bindings

end GraphFilter
