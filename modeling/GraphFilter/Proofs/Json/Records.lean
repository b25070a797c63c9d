import GraphFilter.Json.Records
import GraphFilter.Proofs.Json.Keys

/-!
# Records that were read

A record is read member by member into a structure.  Whatever holds of the structure at
the start and is kept by each member holds of the structure in the end, whether the record
was an object or an array.

Main results:

- Theorem {lit}`Record.invariant_of_read`: what each member keeps, a record keeps.
-/

namespace GraphFilter.Json.Record

variable {σ κ : Type} {r : Record σ κ} {p : σ → Prop}

/-- A member of an object keeps what its field keeps. -/
theorem invariant_of_readMember
    (hfield : ∀ depth key s c s' c', p s → r.readField depth key s c = .ok (s', c') → p s')
    {depth : Nat} {state state' : σ × List String} {name : String} {c c' : Cursor}
    (hstate : p state.1) (h : r.readMember depth state name c = .ok (state', c')) : p state'.1 := by
  unfold readMember at h
  split at h
  · rcases exists_of_bind_eq_ok h with ⟨behind, -, h⟩
    rcases exists_of_bind_eq_ok h with ⟨skipped, -, h⟩
    cases h
    exact hstate
  · split at h
    · cases h
    · rcases exists_of_bind_eq_ok h with ⟨behind, -, h⟩
      rcases exists_of_bind_eq_ok h with ⟨⟨value, next⟩, hread, h⟩
      cases h
      exact hfield _ _ _ _ _ _ hstate hread

/-- The elements of an array keep what their fields keep. -/
theorem invariant_of_readElements
    (hfield : ∀ depth key s c s' c', p s → r.readField depth key s c = .ok (s', c') → p s')
    {depth : Nat} {keys : List κ} {index : Nat} {s s' : σ} {c c' : Cursor} (hs : p s)
    (h : r.readElements depth keys index s c = .ok (s', c')) : p s' := by
  induction keys generalizing index s c with
  | nil =>
    cases h
    exact hs
  | cons key keys ih =>
    rcases exists_of_bind_eq_ok h with ⟨⟨more, next⟩, -, h⟩
    cases more with
    | true =>
      rcases exists_of_bind_eq_ok h with ⟨⟨state, behind⟩, hread, h⟩
      exact ih (hfield _ _ _ _ _ _ hs hread) h
    | false =>
      cases hend : r.mayEndEarly with
      | true =>
        simp only [hend] at h
        cases h
        exact hs
      | false =>
        simp only [hend] at h
        cases h

/-- A value that is neither an object nor an array is no record. -/
theorem refuseScalar_ne_ok (r : Record σ κ) {c c' : Cursor} {s : σ} :
    read.refuseScalar r c ≠ .ok (s, c') := by
  intro h
  rcases exists_of_bind_eq_ok h with ⟨⟨value, behind⟩, -, h⟩
  cases h

/-- What each member keeps, a record keeps. -/
theorem invariant_of_read (hstart : p r.start)
    (hfield : ∀ depth key s c s' c', p s → r.readField depth key s c = .ok (s', c') → p s')
    {depth : Nat} {s : σ} {c c' : Cursor} (h : r.read depth c = .ok (s, c')) : p s := by
  cases depth with
  | zero =>
    rw [read] at h
    split at h
    · cases h
    · exact absurd h (refuseScalar_ne_ok r)
  | succ depth =>
    rw [read] at h
    split at h
    · rw [readArray] at h
      split at h
      · rename_i value behind helements
        rcases exists_of_map_eq_ok h with ⟨_, -, heq⟩
        cases heq
        exact invariant_of_readElements hfield hstart helements
      · cases h
    · rw [readObject] at h
      split at h
      · rename_i value names behind hmembers
        cases h
        exact invariant_of_readMembers
          (fun state name c state' c' => invariant_of_readMember hfield) hstart hmembers
      · cases h
    · exact absurd h (refuseScalar_ne_ok r)

end GraphFilter.Json.Record
