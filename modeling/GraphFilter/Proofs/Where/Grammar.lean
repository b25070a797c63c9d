import GraphFilter.Where.Decode
import GraphFilter.Proofs.Json.Keys

/-!
# Where objects among the JSON values

Which values are where objects, said without the decoder: objects in which each member that is
called like a combinator is an array of where objects.  All other members are comparisons,
whatever they hold.

Main results:

- Theorem {lit}`Where.exists_ofJson_iff`: these are the values that are decoded, apart from null.
-/

namespace GraphFilter

/-- The values that are where objects. -/
inductive Json.Value.IsWhere : Json.Value → Prop where
  | object {members : List (String × Json.Value)}
      (harrays : ∀ (c : Combinator) (value : Json.Value), (c.key, value) ∈ members →
        ∃ items, value = .array items)
      (hentries : ∀ (c : Combinator) (items : List Json.Value), (c.key, .array items) ∈ members →
        ∀ item ∈ items, IsWhere item) : IsWhere (.object members)

namespace Where

/-- Only objects are where objects. -/
theorem not_isWhere_of_ne_object {v : Json.Value} (h : ∀ members, v ≠ .object members) :
    ¬v.IsWhere := by
  rintro ⟨-, -⟩
  exact h _ rfl

/-- An object is a where object if each of its members fits. -/
theorem isWhere_object_iff {members : List (String × Json.Value)} :
    (Json.Value.object members).IsWhere ↔ ∀ member ∈ members, ∀ c : Combinator,
      member.1 = c.key → ∃ items, member.2 = .array items ∧
        ∀ item ∈ items, item.IsWhere := by
  constructor
  · rintro (⟨harrays, hentries⟩)
    rintro ⟨key, value⟩ hmember c rfl
    rcases harrays c value hmember with ⟨items, rfl⟩
    exact ⟨items, rfl, hentries c items hmember⟩
  · intro h
    refine .object ?_ ?_
    · intro c value hmember
      rcases h _ hmember c rfl with ⟨items, heq, -⟩
      exact ⟨items, heq⟩
    · intro c items hmember
      rcases h _ hmember c rfl with ⟨items', heq, hentries⟩
      cases heq
      exact hentries

/-- A member that is called like a combinator but is no array is refused. -/
theorem ofMember_of_ne_array {key : String} {c : Combinator} (hkey : Combinator.ofKey? key = some c)
    {value : Json.Value} (h : ∀ items, value ≠ .array items) :
    ofMember key value = .error (.notAnArray key) := by
  cases value with
  | array items => exact absurd rfl (h items)
  | null | bool | number | string | object => simp only [ofMember, hkey]

/-- Entries of which the first is no object are refused. -/
theorem ofEntries_of_ne_object {key : String} {item : Json.Value}
    (h : ∀ members, item ≠ .object members) (rest : List Json.Value) :
    ofEntries key (item :: rest) = .error (.entryNotAnObject key item) := by
  cases item with
  | object members => exact absurd rfl (h members)
  | null | bool | number | string | array => simp only [ofEntries]

/-- A member that is no array is decoded as a comparison, unless it should be a group. -/
theorem exists_ofMember_of_ne_array {key : String} {value : Json.Value}
    (h : ∀ items, value ≠ .array items) : (∃ condition, ofMember key value = .ok condition) ↔
      ∀ c : Combinator, key = c.key → ∃ items, value = .array items ∧
        ∀ item ∈ items, item.IsWhere := by
  cases hkey : Combinator.ofKey? key with
  | none =>
    refine iff_of_true ⟨_, ofMember_of_ofKey?_eq_none hkey value⟩ ?_
    intro c heq
    rw [Combinator.ofKey?_eq_some_iff.mpr heq] at hkey
    cases hkey
  | some c =>
    constructor
    · rintro ⟨condition, hcondition⟩
      rw [ofMember_of_ne_array hkey h] at hcondition
      cases hcondition
    · intro hgroup
      rcases hgroup c (Combinator.ofKey?_eq_some_iff.mp hkey) with ⟨items, heq, -⟩
      exact absurd heq (h items)

/-- A child that is no object is refused. -/
theorem exists_ofEntries_of_ne_object {key : String} {item : Json.Value} {rest : List Json.Value}
    (h : ∀ members, item ≠ .object members) :
    (∃ children, ofEntries key (item :: rest) = .ok children) ↔
      ∀ other ∈ item :: rest, other.IsWhere := by
  refine iff_of_false ?_ ?_
  · rintro ⟨children, hchildren⟩
    rw [ofEntries_of_ne_object h] at hchildren
    cases hchildren
  · intro hall
    exact not_isWhere_of_ne_object h (hall item List.mem_cons_self)

mutual

/-- The members of an object are decoded if it is a where object. -/
theorem exists_ofMembers_iff : ∀ members : List (String × Json.Value),
    (∃ w, ofMembers members = .ok w) ↔ (Json.Value.object members).IsWhere
  | [] => by
    rw [isWhere_object_iff]
    exact iff_of_true ⟨_, rfl⟩ (by simp)
  | (key, value) :: rest => by
    have hmember := exists_ofMember_iff key value
    have hrest := exists_ofMembers_iff rest
    rw [isWhere_object_iff] at hrest ⊢
    rw [List.forall_mem_cons, ← hrest, ← hmember]
    constructor
    · rintro ⟨w, h⟩
      rcases Json.exists_of_bind_eq_ok h with ⟨condition, hcondition, h⟩
      rcases Json.exists_of_bind_eq_ok h with ⟨conditions, hconditions, -⟩
      exact ⟨⟨condition, hcondition⟩, ⟨conditions, hconditions⟩⟩
    · rintro ⟨⟨condition, hcondition⟩, conditions, hconditions⟩
      refine ⟨condition :: conditions, ?_⟩
      rw [ofMembers, hcondition, hconditions]
      rfl

/-- A member is decoded if it is a comparison or a group of where objects. -/
theorem exists_ofMember_iff (key : String) : ∀ value : Json.Value,
    (∃ condition, ofMember key value = .ok condition) ↔
      ∀ c : Combinator, key = c.key → ∃ items, value = .array items ∧ ∀ item ∈ items, item.IsWhere
  | .array items => by
    have hentries := exists_ofEntries_iff key items
    rw [ofMember]
    cases hkey : Combinator.ofKey? key with
    | none =>
      refine iff_of_true ⟨_, rfl⟩ ?_
      intro c heq
      rw [Combinator.ofKey?_eq_some_iff.mpr heq] at hkey
      cases hkey
    | some c =>
      constructor
      · rintro ⟨condition, h⟩
        rcases Json.exists_of_bind_eq_ok h with ⟨children, hchildren, -⟩
        intro _ _
        exact ⟨items, rfl, hentries.mp ⟨children, hchildren⟩⟩
      · intro hgroup
        rcases hgroup c (Combinator.ofKey?_eq_some_iff.mp hkey) with ⟨items', heq, hall⟩
        cases heq
        rcases hentries.mpr hall with ⟨children, hchildren⟩
        refine ⟨.group c children, ?_⟩
        dsimp only
        rw [hchildren]
        rfl
  | .null => exists_ofMember_of_ne_array (by simp)
  | .bool _ => exists_ofMember_of_ne_array (by simp)
  | .number _ => exists_ofMember_of_ne_array (by simp)
  | .string _ => exists_ofMember_of_ne_array (by simp)
  | .object _ => exists_ofMember_of_ne_array (by simp)

/-- The children of a group are decoded if each of them is a where object. -/
theorem exists_ofEntries_iff (key : String) : ∀ items : List Json.Value,
    (∃ children, ofEntries key items = .ok children) ↔ ∀ item ∈ items, item.IsWhere
  | [] => iff_of_true ⟨_, rfl⟩ (by simp)
  | .object members :: rest => by
    have hmembers := exists_ofMembers_iff members
    have hrest := exists_ofEntries_iff key rest
    rw [List.forall_mem_cons, ← hrest, ← hmembers]
    constructor
    · rintro ⟨_, h⟩
      rcases Json.exists_of_bind_eq_ok h with ⟨child, hchild, h⟩
      rcases Json.exists_of_bind_eq_ok h with ⟨children, hchildren, -⟩
      exact ⟨⟨child, hchild⟩, ⟨children, hchildren⟩⟩
    · rintro ⟨⟨child, hchild⟩, children, hchildren⟩
      refine ⟨child :: children, ?_⟩
      rw [ofEntries, hchild, hchildren]
      rfl
  | .null :: _ => exists_ofEntries_of_ne_object (by simp)
  | .bool _ :: _ => exists_ofEntries_of_ne_object (by simp)
  | .number _ :: _ => exists_ofEntries_of_ne_object (by simp)
  | .string _ :: _ => exists_ofEntries_of_ne_object (by simp)
  | .array _ :: _ => exists_ofEntries_of_ne_object (by simp)

end

/-- The values that are decoded are the where objects and null. -/
theorem exists_ofJson_iff (v : Json.Value) :
    (∃ w, ofJson v = .ok w) ↔ v = .null ∨ v.IsWhere := by
  cases v with
  | null => exact iff_of_true ⟨_, rfl⟩ (.inl rfl)
  | object members =>
    rw [ofJson, exists_ofMembers_iff]
    simp
  | bool | number | string | array =>
    refine iff_of_false ?_ ?_
    · rintro ⟨w, h⟩
      cases h
    · rintro (h | h)
      · cases h
      · cases h

end Where

end GraphFilter
