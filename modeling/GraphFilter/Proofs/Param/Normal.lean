import GraphFilter.Proofs.Json.Keys
import GraphFilter.Proofs.Param.Distinct
import GraphFilter.Proofs.Param.Whole
import Mathlib.Data.List.Forall2
import Mathlib.Data.String.Basic

/-!
# Parameters and their JSON

A JSON value and its parameter have the same form: elements keep their places, members are sorted
by key, and numbers that are integers of the signed range are told from all others.  The JSON of
a parameter has no tags, but it has the same kinds of values, so that no two parameters share it.

Main results:

- Theorem {lit}`mirrors_ofJson`: the parameter for a value mirrors it.
- Theorem {lit}`ofJson_toJson`: a parameter in normal form is the one for its JSON.
- Theorem {lit}`faithful_ofJson`: converting a value loses nothing but how numbers are stored.
-/

namespace GraphFilter

open Decimal (Binary64)

namespace Json.Number

/-- The number that is stored. -/
def value : Number → ℚ
  | int n _ => n
  | float x => x.value

/-- Whether a floating-point number is what a number becomes if it is no integer parameter. -/
def RoundsTo : Number → Binary64 → Prop
  | int n _, x => Binary64.ofInt n = some x
  | float y, x => y = x

end Json.Number

/-! ## Sorted keys -/

/-- Whether keys ascend. -/
def Ascending {α : Type} (entries : List (String × α)) : Prop :=
  (entries.map Prod.fst).Pairwise (· < ·)

section
variable {α : Type} {key : String} {value : α} {entries : List (String × α)}

/-- A key in front of all others is put in front. -/
theorem insertByKey_of_lt (h : ∀ k ∈ entries.map Prod.fst, key < k) :
    insertByKey key value entries = (key, value) :: entries := by
  cases entries with
  | nil => rfl
  | cons entry rest =>
    rcases entry with ⟨k, v⟩
    have hk : key < k := h k (by simp)
    rw [insertByKey, if_pos hk]

/-- Insertion keeps keys ascending. -/
theorem Ascending.insertByKey (h : Ascending entries) :
    Ascending (insertByKey key value entries) := by
  unfold Ascending at h ⊢
  induction entries with
  | nil => simp [GraphFilter.insertByKey]
  | cons entry rest ih =>
    rcases entry with ⟨k, v⟩
    have hcons := List.pairwise_cons.mp h
    rw [GraphFilter.insertByKey]
    split
    · rename_i hlt
      refine List.pairwise_cons.mpr ⟨?_, h⟩
      intro k' hk'
      rcases List.mem_cons.mp hk' with rfl | hk'
      · exact hlt
      · exact hlt.trans (hcons.1 k' hk')
    · rename_i hlt
      split
      · rename_i heq
        rw [List.map_cons, heq]
        exact h
      · rename_i hne
        refine List.pairwise_cons.mpr ⟨?_, ih hcons.2⟩
        intro k' hk'
        rcases mem_keys_insertByKey.mp hk' with rfl | hk'
        · exact lt_of_le_of_ne (not_lt.mp hlt) (Ne.symm hne)
        · exact hcons.1 k' hk'

end

namespace Param

/-! ## The form of a parameter -/

/-- The parameters that mirror a JSON value. -/
inductive Mirrors : Json.Value → Param → Prop where
  | null : Mirrors .null null
  | bool (b : Bool) : Mirrors (.bool b) (bool b)
  | whole {num : Json.Number} {i : Int64} (h : num.value = i.toInt) :
      Mirrors (.number num) (int i)
  | other {num : Json.Number} {x : Binary64} (h : ∀ i : Int64, num.value ≠ i.toInt)
      (hx : num.RoundsTo x) : Mirrors (.number num) (float x)
  | string (s : String) : Mirrors (.string s) (string s)
  | list {items : List Json.Value} {params : List Param} (h : List.Forall₂ Mirrors items params) :
      Mirrors (.array items) (list params)
  | map {members : List (String × Json.Value)} {entries sorted : List (String × Param)}
      (hkeys : members.map Prod.fst = entries.map Prod.fst)
      (hvalues : List.Forall₂ Mirrors (members.map Prod.snd) (entries.map Prod.snd))
      (hperm : sorted.Perm entries) (hsorted : Ascending sorted) :
      Mirrors (.object members) (map sorted)

/-- A number is an integer of the signed range and becomes it, or it becomes a floating-point
number that is none either. -/
theorem cases_ofNumber (num : Json.Number) :
    (∃ i : Int64, num.value = i.toInt ∧ ofNumber num = int i) ∨
      (∀ i : Int64, num.value ≠ i.toInt) ∧
        ∃ x, num.RoundsTo x ∧ ofNumber num = float x ∧ ∀ i : Int64, x.value ≠ i.toInt := by
  cases num with
  | int n hkeeps =>
    by_cases hn : HoldsInteger n
    · refine .inl ⟨Int64.ofInt n, ?_, if_pos hn⟩
      rw [toInt_ofInt_of_holds hn]
      rfl
    · refine .inr ⟨?_, exists_ofInteger hkeeps hn⟩
      intro i hi
      have hvalue : n = i.toInt := Int.cast_injective hi
      exact hn (hvalue ▸ holdsInteger_toInt i)
  | float x =>
    by_cases h : ∃ i : Int64, x.value = i.toInt
    · rcases h with ⟨i, hi⟩
      exact .inl ⟨i, hi, ofFloat_eq_int_iff.mpr hi⟩
    · rw [not_exists] at h
      exact .inr ⟨h, x, rfl, ofFloat_eq_float h, h⟩

theorem mirrors_ofNumber (num : Json.Number) : Mirrors (.number num) (ofNumber num) := by
  rcases cases_ofNumber num with ⟨i, hi, heq⟩ | ⟨hne, x, hx, heq, -⟩
  · rw [heq]
    exact .whole hi
  · rw [heq]
    exact .other hne hx

theorem ofItems_eq_map (items : List Json.Value) : ofItems items = items.map ofJson := by
  induction items with
  | nil => rfl
  | cons v rest ih => rw [ofItems, ih, List.map_cons]

/-- Members with distinct keys are all kept, in another order. -/
theorem ofMembers_perm {members : List (String × Json.Value)}
    (h : (members.map Prod.fst).Nodup) :
    (ofMembers members).Perm (members.map fun member => (member.1, ofJson member.2)) := by
  induction members with
  | nil => exact List.Perm.refl _
  | cons member rest ih =>
    rcases member with ⟨key, v⟩
    rw [List.map_cons, List.nodup_cons] at h
    have hrest := ih h.2
    have hkeys := hrest.map Prod.fst
    rw [List.map_map] at hkeys
    have hnew : key ∉ (ofMembers rest).map Prod.fst :=
      fun hmem => h.1 (hkeys.mem_iff.mp hmem)
    exact (insertByKey_perm hnew).trans (hrest.cons _)

theorem ascending_ofMembers (members : List (String × Json.Value)) :
    Ascending (ofMembers members) := by
  induction members with
  | nil => exact List.Pairwise.nil
  | cons member rest ih => exact ih.insertByKey

/-- The parameter for a value mirrors it. -/
theorem mirrors_ofJson {v : Json.Value} (h : v.DistinctKeys) : Mirrors v (ofJson v) := by
  induction h with
  | null => exact .null
  | bool b => exact .bool b
  | number num => exact mirrors_ofNumber num
  | string s => exact .string s
  | array hitems ih =>
    rw [ofJson, ofItems_eq_map]
    refine .list ?_
    rw [List.forall₂_map_right_iff, List.forall₂_same]
    exact ih
  | object hkeys hmembers ih =>
    rw [ofJson]
    refine .map ?_ ?_ (ofMembers_perm hkeys) (ascending_ofMembers _)
    · rw [List.map_map]
      rfl
    · rw [List.map_map, List.forall₂_map_left_iff, List.forall₂_map_right_iff, List.forall₂_same]
      exact ih

/-! ## Normal form -/

/-- The parameters in normal form: no floating-point number could be an integer, and keys
ascend. -/
inductive Normal : Param → Prop where
  | null : Normal null
  | bool (b : Bool) : Normal (bool b)
  | int (i : Int64) : Normal (int i)
  | float {x : Binary64} (h : ∀ i : Int64, x.value ≠ i.toInt) : Normal (float x)
  | string (s : String) : Normal (string s)
  | list {items : List Param} (h : ∀ item ∈ items, Normal item) : Normal (list items)
  | map {entries : List (String × Param)} (hsorted : Ascending entries)
      (h : ∀ entry ∈ entries, Normal entry.2) : Normal (map entries)

theorem normal_ofNumber (num : Json.Number) : Normal (ofNumber num) := by
  rcases cases_ofNumber num with ⟨i, -, heq⟩ | ⟨-, x, -, heq, hne⟩
  · rw [heq]
    exact .int i
  · rw [heq]
    exact .float hne

/-- The parameter for a value is in normal form. -/
theorem normal_ofJson {v : Json.Value} (h : v.DistinctKeys) : Normal (ofJson v) := by
  induction h with
  | null => exact .null
  | bool b => exact .bool b
  | number num => exact normal_ofNumber num
  | string s => exact .string s
  | array hitems ih =>
    rw [ofJson, ofItems_eq_map]
    refine .list ?_
    rw [List.forall_mem_map]
    exact ih
  | object hkeys hmembers ih =>
    rw [ofJson]
    refine .map (ascending_ofMembers _) ?_
    intro entry hentry
    rcases List.mem_map.mp ((ofMembers_perm hkeys).mem_iff.mp hentry) with ⟨member, hmember, rfl⟩
    exact ih member hmember

/-! ## From JSON and back -/

theorem toItems_eq_map (items : List Param) : toItems items = items.map toJson := by
  induction items with
  | nil => rfl
  | cons p rest ih => rw [toItems, ih, List.map_cons]

/-- Entries with ascending keys are read back in their order. -/
theorem ofMembers_toMembers {entries : List (String × Param)} (hsorted : Ascending entries)
    (h : ∀ entry ∈ entries, ofJson (toJson entry.2) = entry.2) :
    ofMembers (toMembers entries) = entries := by
  induction entries with
  | nil => rfl
  | cons entry rest ih =>
    rcases entry with ⟨key, p⟩
    rcases List.pairwise_cons.mp hsorted with ⟨hfirst, hrest⟩
    rw [List.forall_mem_cons] at h
    rw [toMembers, ofMembers, ih hrest h.2, h.1]
    exact insertByKey_of_lt hfirst

/-- A parameter in normal form is the one for its JSON. -/
theorem ofJson_toJson {p : Param} (h : Normal p) : ofJson (toJson p) = p := by
  induction h with
  | null => rfl
  | bool b => rfl
  | int i =>
    rw [toJson, ofJson, ofNumber, ofInteger, if_pos (holdsInteger_toInt i), Int64.ofInt_toInt]
  | float h => exact ofFloat_eq_float h
  | string s => rfl
  | @list items h ih =>
    have hitems : items.map (ofJson ∘ toJson) = items.map id := List.map_congr_left ih
    rw [toJson, ofJson, toItems_eq_map, ofItems_eq_map, List.map_map, hitems, List.map_id]
  | map hsorted h ih => rw [toJson, ofJson, ofMembers_toMembers hsorted ih]

mutual

/-- No two parameters have the same JSON. -/
theorem toJson_injective : ∀ p q : Param, toJson p = toJson q → p = q
  | null, q, h => by cases q <;> simp_all [toJson]
  | bool b, q, h => by cases q <;> simp_all [toJson]
  | int i, q, h => by
    cases q with
    | int j =>
      simp only [toJson, Json.Value.number.injEq, Json.Number.int.injEq, Int64.toInt_inj] at h
      rw [h]
    | _ => simp [toJson] at h
  | float x, q, h => by cases q <;> simp_all [toJson]
  | string s, q, h => by cases q <;> simp_all [toJson]
  | list items, q, h => by
    cases q with
    | list items' =>
      simp only [toJson, Json.Value.array.injEq] at h
      rw [toItems_injective items items' h]
    | _ => simp [toJson] at h
  | map entries, q, h => by
    cases q with
    | map entries' =>
      simp only [toJson, Json.Value.object.injEq] at h
      rw [toMembers_injective entries entries' h]
    | _ => simp [toJson] at h

theorem toItems_injective : ∀ items items' : List Param, toItems items = toItems items' →
    items = items'
  | [], items', h => by cases items' <;> simp_all [toItems]
  | p :: rest, [], h => by simp [toItems] at h
  | p :: rest, q :: rest', h => by
    simp only [toItems, List.cons.injEq] at h
    rw [toJson_injective p q h.1, toItems_injective rest rest' h.2]

theorem toMembers_injective : ∀ entries entries' : List (String × Param),
    toMembers entries = toMembers entries' → entries = entries'
  | [], entries', h => by cases entries' <;> simp_all [toMembers]
  | (key, p) :: rest, [], h => by simp [toMembers] at h
  | (key, p) :: rest, (key', q) :: rest', h => by
    simp only [toMembers, List.cons.injEq, Prod.mk.injEq] at h
    rw [h.1.1, toJson_injective p q h.1.2, toMembers_injective rest rest' h.2]

end

/-- The parameter for a value mirrors it and is the one for its own JSON as well, which no other
parameter has. -/
theorem faithful_ofJson {v : Json.Value} (h : v.DistinctKeys) : Mirrors v (ofJson v) ∧
    ofJson (toJson (ofJson v)) = ofJson v ∧ ∀ p : Param, toJson p = toJson (ofJson v) →
      p = ofJson v :=
  ⟨mirrors_ofJson h, ofJson_toJson (normal_ofJson h), fun p => toJson_injective p _⟩

/-- Negative zero and one become integers, the greatest integer of 64 bits and three halves do not,
and members are put in order. -/
theorem faithful_ofJson_nested : ∃ (v : Json.Value) (large half : Binary64),
    Binary64.ofInt 18446744073709551615 = some large ∧ half.value = 3 / 2 ∧
      v = .object [
        ("b", .array [.number (.float (.zero true)),
          .number (.float ⟨false, 4503599627370496, -52, by decide⟩),
          .number (.int 18446744073709551615 (by decide))]),
        ("a", .object [("x", .number (.float half))])] ∧
      ofJson v = map [
        ("a", map [("x", float half)]),
        ("b", list [int 0, int 1, float large])] ∧
      v.DistinctKeys ∧ Mirrors v (ofJson v) ∧ ofJson (toJson (ofJson v)) = ofJson v ∧
      ∀ p : Param, toJson p = toJson (ofJson v) → p = ofJson v := by
  have hone : ofFloat ⟨false, 4503599627370496, -52, by decide⟩ = int 1 := rfl
  have hhalf : ofFloat ⟨false, 6755399441055744, -52, by decide⟩ =
      float ⟨false, 6755399441055744, -52, by decide⟩ := rfl
  have hlarge : ofInteger 18446744073709551615 =
      float ⟨false, 4503599627370496, 12, by decide⟩ := rfl
  have horder : ¬"b" < "a" := by decide
  refine ⟨_, ⟨false, 4503599627370496, 12, by decide⟩, ⟨false, 6755399441055744, -52, by decide⟩,
    rfl, ?_, rfl, ?_, ?keys, faithful_ofJson ?keys⟩
  · norm_num [Binary64.value, Binary64.magnitude]
  · simp only [ofJson, ofMembers, ofItems, insertByKey, ofNumber, ofFloat_zero, hone, hhalf, hlarge,
      horder]
    rfl
  · refine .object (by decide) ?_
    simp only [List.mem_cons, List.not_mem_nil, or_false, forall_eq_or_imp, forall_eq]
    refine ⟨.array ?_, .object (by decide) ?_⟩
    · simp [Json.Value.DistinctKeys.number]
    · simp [Json.Value.DistinctKeys.number]

end Param

end GraphFilter
