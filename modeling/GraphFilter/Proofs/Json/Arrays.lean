import GraphFilter.Proofs.Json.Lookup
import Mathlib.Data.List.Forall2

/-!
# Records that are read from arrays

A record is read from an array element by element: each stands for the key at its place.  An
array may hold fewer elements than there are keys, where the record allows it, but not more.

Main results:

- Theorem {lit}`Record.exists_readElements_iff`: the elements from which a record is read.
- Theorem {lit}`Record.exists_read_iff`: the values, other than objects, that are records.
-/

namespace GraphFilter.Json

namespace Record

variable {σ κ : Type}

/-- The values that may stand for a key: whether something is read for a key depends on the value
alone, and it ends where the value does. -/
def Admits (r : Record σ κ) (depth : Nat) (admits : κ → Value → Prop) : Prop :=
  ∀ {key s c v c₁ c₂}, readValue depth c = .ok (v, c₁) →
    ((∃ s', r.readField depth key s c = .ok (s', c₂)) ↔ c₂ = c₁ ∧ admits key v)

section
variable {r : Record σ κ} {depth : Nat} {admits : κ → Value → Prop} (hearly : r.mayEndEarly = true)
  (hadmits : r.Admits depth admits)
include hearly hadmits

/-- Elements are taken if they may stand for the keys at their places, of which there must be
enough. -/
theorem exists_readElements_iff {first : Bool} {items : List Value} {c c₁ c₂ : Cursor}
    (h : Elements (readValue depth) first c items c₁) {keys : List κ} {index : Nat} {s : σ}
    (hindex : (index == 0) = first) :
    (∃ s' c', r.readElements depth keys index s c = .ok (s', c') ∧ endElements c' = .ok c₂) ↔
      c₂ = c₁ ∧ List.Forall₂ admits (keys.take items.length) items := by
  induction h generalizing keys index s with
  | @nil first c bracket hend =>
    rcases eq_skipSpace_of_nextItem hend with ⟨rfl, rest, hbracket⟩
    -- without keys nothing was read, otherwise the spaces in front of the bracket
    obtain ⟨c', hrun, hskip⟩ : ∃ c', r.readElements depth keys index s c = .ok (s, c') ∧
        c'.skipSpace = c.skipSpace := by
      cases keys with
      | nil => exact ⟨c, rfl, rfl⟩
      | cons key keys =>
        refine ⟨c.skipSpace, ?_, c.skipSpace_skipSpace⟩
        rw [readElements, hindex, hend]
        dsimp only [bind, Except.bind]
        rw [if_neg Bool.false_ne_true, if_pos hearly]
        rfl
    have hends : endElements c' = .ok c.skipSpace.next := by
      rw [← hskip] at hbracket ⊢
      exact endElements_of_bracket hbracket
    rw [hrun]
    constructor
    · rintro ⟨_, _, heq, hend'⟩
      cases heq
      cases hends.symm.trans hend'
      exact ⟨rfl, .nil⟩
    · rintro ⟨rfl, -⟩
      exact ⟨s, c', rfl, hends⟩
  | @cons first c item behind c₁ v items hnext hread hrest ih =>
    cases keys with
    | nil =>
      refine iff_of_false ?_ (fun h => nomatch h.2)
      rintro ⟨s', c', h, hend⟩
      cases h
      rcases exists_of_endElements hend with ⟨-, rest, hbracket⟩
      cases (nextItem_of_bracket first hbracket).symm.trans hnext
    | cons key keys =>
      have hindex' : (index + 1 == 0) = false := rfl
      rw [List.length_cons, List.take_succ_cons, List.forall₂_cons]
      constructor
      · rintro ⟨s', c', h, hend⟩
        rcases exists_of_bind_eq_ok h with ⟨⟨more, next⟩, hnext', h⟩
        rw [hindex] at hnext'
        cases hnext.symm.trans hnext'
        rcases exists_of_bind_eq_ok h with ⟨⟨s₁, behind'⟩, hfield, h⟩
        rcases (hadmits hread).mp ⟨s₁, hfield⟩ with ⟨rfl, hadmitted⟩
        rcases (ih hindex').mp ⟨s', c', h, hend⟩ with ⟨hplace, hrest⟩
        exact ⟨hplace, hadmitted, hrest⟩
      · rintro ⟨hplace, hadmitted, hrest⟩
        rcases (hadmits hread).mpr ⟨rfl, hadmitted⟩ with ⟨s₁, hfield⟩
        rcases (ih hindex').mpr ⟨hplace, hrest⟩ with ⟨s', c', h, hend⟩
        refine ⟨s', c', ?_, hend⟩
        rw [readElements, hindex, hnext]
        change (r.readField depth key s item >>= fun x =>
          r.readElements depth keys (index + 1) x.1 x.2) = _
        rw [hfield]
        exact h

/-- An array is a record if its elements may stand for the keys at their places. -/
theorem exists_readArray_iff {items : List Value} {c c₁ c₂ : Cursor}
    (h : Elements (readValue depth) true c items c₁) :
    (∃ s, r.readArray depth c = .ok (s, c₂)) ↔
      c₂ = c₁ ∧ List.Forall₂ admits (r.keys.take items.length) items := by
  have hindex : (0 == 0) = true := rfl
  rw [← exists_readElements_iff hearly hadmits h hindex, readArray]
  constructor
  · rintro ⟨s, hs⟩
    split at hs
    · rename_i s' c' helements
      rcases exists_of_map_eq_ok hs with ⟨c₃, hend, heq⟩
      cases heq
      exact ⟨s, c', helements, hend⟩
    · cases hs
  · rintro ⟨s, c', helements, hend⟩
    refine ⟨s, ?_⟩
    simp only [helements, hend]
    rfl

/-- Other than objects, only arrays whose elements may stand for the keys at their places are
records. -/
theorem exists_read_iff {v : Value} {c c₁ c₂ : Cursor}
    (hvalue : readValue (depth + 1) c = .ok (v, c₁)) (hobject : ∀ members, v ≠ .object members) :
    (∃ s, r.read (depth + 1) c = .ok (s, c₂)) ↔ c₂ = c₁ ∧
      ∃ items, v = .array items ∧ List.Forall₂ admits (r.keys.take items.length) items := by
  rw [readValue] at hvalue
  dsimp only at hvalue
  split at hvalue
  · rename_i heq
    rcases exists_of_map_eq_ok hvalue with ⟨⟨items, behind⟩, hitems, heq'⟩
    cases heq'
    rcases exists_elements hitems with ⟨all, rfl, helements⟩
    rw [read]
    simp only [heq]
    rw [exists_readArray_iff hearly hadmits helements]
    refine and_congr_right fun _ => ?_
    constructor
    · exact fun h => ⟨_, rfl, h⟩
    · rintro ⟨_, heq, h⟩
      cases heq
      exact h
  · rename_i heq
    rcases exists_of_map_eq_ok hvalue with ⟨⟨members, behind⟩, hmembers, heq'⟩
    cases heq'
    exact absurd rfl (hobject members)
  · rename_i hlist hbrace
    refine iff_of_false ?_ ?_
    · rintro ⟨s, h⟩
      rw [read] at h
      split at h
      · rename_i heq
        exact (hlist _ heq).elim
      · rename_i heq
        exact (hbrace _ heq).elim
      · exact absurd h (refuseScalar_ne_ok r)
    · rintro ⟨-, items, rfl, -⟩
      exact absurd rfl ((ne_of_readScalar hvalue).1 items)

end

end Record

end GraphFilter.Json
