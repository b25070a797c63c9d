import GraphFilter.Proofs.Where.Grammar
import Mathlib.Data.List.Forall2

/-!
# What where objects are decoded to

Each member of a where object is one condition, and what condition it is follows from its name
and its value alone.

Main results:

- Theorem {lit}`Where.ofMembers_eq_ok_iff`: the conditions of an object's members.
- Theorem {lit}`Where.ofJson_eq_ok_iff`: the conditions of a value.
-/

namespace GraphFilter

namespace Where

/-! ## Conditions of members -/

/-- What a member of a where object stands for.  Only the two names of combinators make groups;
under any other name the value is not looked into further than its first member. -/
inductive Denotes : String × Json.Value → Condition Comparison → Prop where
  | group (c : Combinator) {inner : List (List (String × Json.Value))} {children : List Where}
      (h : List.Forall₂ (List.Forall₂ Denotes) inner children) :
      Denotes (c.key, .array (inner.map .object)) (.group c children)
  | equals {field : String} (hfield : ∀ c : Combinator, field ≠ c.key) {value : Json.Value}
      (hvalue : ∀ members, value ≠ .object members) :
      Denotes (field, value) (.leaf ⟨field, .eq, some value⟩)
  | compares {field : String} (hfield : ∀ c : Combinator, field ≠ c.key) (operator : String)
      (operand : Json.Value) (others : List (String × Json.Value)) :
      Denotes (field, .object ((operator, operand) :: others))
        (.leaf ⟨field, .ofName operator, some operand⟩)
  | nothing {field : String} (hfield : ∀ c : Combinator, field ≠ c.key) :
      Denotes (field, .object []) (.leaf ⟨field, .unsupported "", none⟩)

theorem ofKey?_eq_none_iff {key : String} :
    Combinator.ofKey? key = none ↔ ∀ c : Combinator, key ≠ c.key := by
  constructor
  · rintro h c rfl
    rw [Combinator.ofKey?_key] at h
    cases h
  · intro h
    cases hkey : Combinator.ofKey? key with
    | none => rfl
    | some c => exact absurd (Combinator.ofKey?_eq_some_iff.mp hkey) (h c)

/-- A member that is not called like a combinator stands for its comparison. -/
theorem denotes_of_ne_key {field : String} (hfield : ∀ c : Combinator, field ≠ c.key)
    {value : Json.Value} {condition : Condition Comparison} :
    Denotes (field, value) condition ↔ condition = .leaf (.ofJson field value) := by
  constructor
  · intro h
    cases h with
    | group c _ => exact absurd rfl (hfield c)
    | equals _ hvalue =>
      cases value with
      | object members => exact absurd rfl (hvalue members)
      | null | bool | number | string | array => rfl
    | compares | nothing => rfl
  · rintro rfl
    cases value with
    | object members =>
      cases members with
      | nil => exact .nothing hfield
      | cons member others => exact .compares hfield member.1 member.2 others
    | null | bool | number | string | array => exact .equals hfield (by simp)

/-- A member that is called like a combinator stands for a group. -/
theorem denotes_of_key {c : Combinator} {value : Json.Value} {condition : Condition Comparison} :
    Denotes (c.key, value) condition ↔ ∃ inner children, value = .array (inner.map .object) ∧
      condition = .group c children ∧ List.Forall₂ (List.Forall₂ Denotes) inner children := by
  constructor
  · generalize hkey : c.key = key
    intro h
    cases h with
    | group d h =>
      rw [Combinator.key_injective hkey]
      exact ⟨_, _, rfl, rfl, h⟩
    | equals hfield _ => exact absurd hkey.symm (hfield c)
    | compares hfield _ _ _ => exact absurd hkey.symm (hfield c)
    | nothing hfield => exact absurd hkey.symm (hfield c)
  · rintro ⟨inner, children, rfl, rfl, h⟩
    exact .group c h

/-- A member that is no array is no group. -/
theorem ofMember_eq_ok_of_ne_array {key : String} {value : Json.Value}
    (hvalue : ∀ items, value ≠ .array items) {condition : Condition Comparison} :
    ofMember key value = .ok condition ↔ Denotes (key, value) condition := by
  cases hkey : Combinator.ofKey? key with
  | none =>
    rw [ofMember_of_ofKey?_eq_none hkey, denotes_of_ne_key (ofKey?_eq_none_iff.mp hkey),
      Except.ok.injEq, eq_comm]
  | some c =>
    cases Combinator.ofKey?_eq_some_iff.mp hkey
    rw [ofMember_of_ne_array hkey hvalue, denotes_of_key]
    constructor
    · intro h
      cases h
    · rintro ⟨inner, children, heq, -, -⟩
      exact absurd heq (hvalue _)

/-- Entries of which the first is no object are no children. -/
theorem ofEntries_eq_ok_of_ne_object {key : String} {item : Json.Value} {rest : List Json.Value}
    (hitem : ∀ members, item ≠ .object members) {children : List Where} :
    ofEntries key (item :: rest) = .ok children ↔ ∃ inner, item :: rest = inner.map .object ∧
      List.Forall₂ (List.Forall₂ Denotes) inner children := by
  rw [ofEntries_of_ne_object hitem]
  refine iff_of_false nofun ?_
  rintro ⟨inner, heq, -⟩
  rcases List.map_eq_cons_iff.mp heq.symm with ⟨members, _, -, hmembers, -⟩
  exact hitem members hmembers.symm

mutual

/-- The members of an object are decoded to the conditions they stand for, in their order. -/
theorem ofMembers_eq_ok_iff : ∀ (members : List (String × Json.Value)) (w : Where),
    ofMembers members = .ok w ↔ List.Forall₂ Denotes members w
  | [], w => by
    rw [List.forall₂_nil_left_iff, ofMembers, Except.ok.injEq, eq_comm]
  | (key, value) :: rest, w => by
    have hmember := ofMember_eq_ok_iff key value
    have hrest := ofMembers_eq_ok_iff rest
    rw [List.forall₂_cons_left_iff]
    constructor
    · intro h
      rcases Json.exists_of_bind_eq_ok h with ⟨condition, hcondition, h⟩
      rcases Json.exists_of_bind_eq_ok h with ⟨conditions, hconditions, h⟩
      cases h
      exact ⟨condition, conditions, (hmember _).mp hcondition, (hrest _).mp hconditions, rfl⟩
    · rintro ⟨condition, conditions, hcondition, hconditions, rfl⟩
      rw [ofMembers, (hmember _).mpr hcondition, (hrest _).mpr hconditions]
      rfl

/-- A member is decoded to the condition it stands for. -/
theorem ofMember_eq_ok_iff (key : String) : ∀ (value : Json.Value)
    (condition : Condition Comparison),
    ofMember key value = .ok condition ↔ Denotes (key, value) condition
  | .array items, condition => by
    have hentries := ofEntries_eq_ok_iff key items
    cases hkey : Combinator.ofKey? key with
    | none =>
      rw [ofMember_of_ofKey?_eq_none hkey, denotes_of_ne_key (ofKey?_eq_none_iff.mp hkey),
        Except.ok.injEq, eq_comm]
    | some c =>
      cases Combinator.ofKey?_eq_some_iff.mp hkey
      rw [denotes_of_key, ofMember, hkey]
      constructor
      · intro h
        rcases Json.exists_of_bind_eq_ok h with ⟨children, hchildren, h⟩
        cases h
        rcases (hentries _).mp hchildren with ⟨inner, rfl, hinner⟩
        exact ⟨inner, children, rfl, rfl, hinner⟩
      · rintro ⟨inner, children, heq, rfl, hinner⟩
        cases heq
        dsimp only
        rw [(hentries _).mpr ⟨inner, rfl, hinner⟩]
        rfl
  | .null, _ => ofMember_eq_ok_of_ne_array (by simp)
  | .bool _, _ => ofMember_eq_ok_of_ne_array (by simp)
  | .number _, _ => ofMember_eq_ok_of_ne_array (by simp)
  | .string _, _ => ofMember_eq_ok_of_ne_array (by simp)
  | .object _, _ => ofMember_eq_ok_of_ne_array (by simp)

/-- The entries of a group are decoded if all of them are objects. -/
theorem ofEntries_eq_ok_iff (key : String) : ∀ (items : List Json.Value) (children : List Where),
    ofEntries key items = .ok children ↔ ∃ inner, items = inner.map .object ∧
      List.Forall₂ (List.Forall₂ Denotes) inner children
  | [], children => by
    rw [ofEntries, Except.ok.injEq]
    constructor
    · rintro rfl
      exact ⟨[], rfl, .nil⟩
    · rintro ⟨inner, heq, h⟩
      rw [List.map_eq_nil_iff.mp heq.symm, List.forall₂_nil_left_iff] at h
      exact h.symm
  | .object members :: rest, children => by
    have hmembers := ofMembers_eq_ok_iff members
    have hrest := ofEntries_eq_ok_iff key rest
    constructor
    · intro h
      rcases Json.exists_of_bind_eq_ok h with ⟨child, hchild, h⟩
      rcases Json.exists_of_bind_eq_ok h with ⟨others, hothers, h⟩
      cases h
      rcases (hrest _).mp hothers with ⟨inner, rfl, hinner⟩
      exact ⟨members :: inner, rfl, .cons ((hmembers _).mp hchild) hinner⟩
    · rintro ⟨inner, heq, h⟩
      rcases List.map_eq_cons_iff.mp heq.symm with ⟨first, others, rfl, hfirst, rfl⟩
      cases hfirst
      rcases List.forall₂_cons_left_iff.mp h with ⟨child, children, hchild, hchildren, rfl⟩
      rw [ofEntries, (hmembers _).mpr hchild, (hrest _).mpr ⟨others, rfl, hchildren⟩]
      rfl
  | .null :: _, _ => ofEntries_eq_ok_of_ne_object (by simp)
  | .bool _ :: _, _ => ofEntries_eq_ok_of_ne_object (by simp)
  | .number _ :: _, _ => ofEntries_eq_ok_of_ne_object (by simp)
  | .string _ :: _, _ => ofEntries_eq_ok_of_ne_object (by simp)
  | .array _ :: _, _ => ofEntries_eq_ok_of_ne_object (by simp)

end

/-- The value null gives the where object without conditions; an object gives what its members
stand for. -/
theorem ofJson_eq_ok_iff {v : Json.Value} {w : Where} :
    ofJson v = .ok w ↔ v = .null ∧ w = .empty ∨
      ∃ members, v = .object members ∧ List.Forall₂ Denotes members w := by
  cases v with
  | null => simp [ofJson, eq_comm]
  | object members => simp [ofJson, ofMembers_eq_ok_iff]
  | bool | number | string | array => simp [ofJson]

end Where

end GraphFilter
