import GraphFilter.Proofs.Json.Naturals
import GraphFilter.Proofs.Json.Records

/-!
# Records and the values of their texts

A record is read from a text that also has a value.  Where both readings succeed they end at
the same place, and the record can be told from the value: each of its fields follows the
member of its key or, in an array, the element at its place.

Main results:

- Theorem {lit}`readMembers_lockstep`: two loops over the members of one object.
- Theorem {lit}`Record.says_of_read`: a record follows the value of its text.
-/

namespace GraphFilter.Json

/-! ## Two readings of one text -/

/-- Two loops over the members of one object stay together if they do at each member. -/
theorem readMembers_lockstep {σ τ : Type} (together : σ → τ → Prop)
    {read : σ → String → Cursor → Except Failure (σ × Cursor)}
    {read' : τ → String → Cursor → Except Failure (τ × Cursor)}
    (hread : ∀ {s t key c s' c₁ t' c₂}, together s t → read s key c = .ok (s', c₁) →
      read' t key c = .ok (t', c₂) → c₂ = c₁ ∧ together s' t')
    {steps steps' : Nat} {first : Bool} {s s' : σ} {t t' : τ} {c c₁ c₂ : Cursor}
    (hstart : together s t) (h : readMembers read steps first s c = .ok (s', c₁))
    (h' : readMembers read' steps' first t c = .ok (t', c₂)) : c₂ = c₁ ∧ together s' t' := by
  induction steps generalizing steps' first s t c with
  | zero => cases h
  | succ steps ih =>
    cases steps' with
    | zero => cases h'
    | succ steps' =>
      rcases exists_of_bind_eq_ok h with ⟨⟨key, next⟩, hnext, h⟩
      rcases exists_of_bind_eq_ok h' with ⟨⟨key', next'⟩, hnext', h'⟩
      cases hnext.symm.trans hnext'
      cases key with
      | none =>
        cases h
        cases h'
        exact ⟨rfl, hstart⟩
      | some key =>
        rcases exists_of_bind_eq_ok h with ⟨⟨s₁, behind⟩, hmember, h⟩
        rcases exists_of_bind_eq_ok h' with ⟨⟨t₁, behind'⟩, hmember', h'⟩
        rcases hread hstart hmember hmember' with ⟨rfl, htogether⟩
        exact ih htogether h h'

/-- A member that is stored is found, and all others are found as before. -/
theorem Value.lookup_insertMember (key : String) (value : Value) (members : List (String × Value))
    (name : String) : (insertMember key value members).lookup name =
      if name = key then some value else members.lookup name := by
  have hcons (k : String) (v : Value) (rest : List (String × Value)) :
      ((k, v) :: rest).lookup name = if name = k then some v else rest.lookup name := by
    rw [List.lookup_cons]
    by_cases h : name = k
    · rw [if_pos h, beq_iff_eq.mpr h]
    · rw [if_neg h, beq_eq_false_iff_ne.mpr h]
  induction members with
  | nil => exact hcons key value []
  | cons member rest ih =>
    rcases member with ⟨k, v⟩
    rw [insertMember]
    split
    · rename_i hk
      rw [hcons, hcons, hk]
      split <;> rfl
    · rename_i hk
      rw [hcons, hcons, ih]
      by_cases h : name = k
      · rw [if_pos h, if_pos h, if_neg (fun heq => hk (h.symm.trans heq))]
      · rw [if_neg h, if_neg h]

/-! ## Elements of an array -/

section
variable {α : Type} {read : Cursor → Except Failure (α × Cursor)}

/-- The elements of an array from some place in it on, and the place behind its closing bracket.
The flag says that none has come before. -/
inductive Elements (read : Cursor → Except Failure (α × Cursor)) :
    Bool → Cursor → List α → Cursor → Prop where
  | nil {first : Bool} {c bracket : Cursor} (hend : nextItem first c = .ok (false, bracket)) :
      Elements read first c [] bracket.next
  | cons {first : Bool} {c item behind c' : Cursor} {a : α} {items : List α}
      (hnext : nextItem first c = .ok (true, item)) (hread : read item = .ok (a, behind))
      (hrest : Elements read false behind items c') : Elements read first c (a :: items) c'

/-- The elements that are read from an array. -/
theorem exists_elements {steps : Nat} {taken all : List α} {c c' : Cursor}
    (h : readItems read steps taken c = .ok (all, c')) :
    ∃ items, all = taken.reverse ++ items ∧ Elements read taken.isEmpty c items c' := by
  induction steps generalizing taken c with
  | zero => cases h
  | succ steps ih =>
    rcases exists_of_bind_eq_ok h with ⟨⟨more, next⟩, hnext, h⟩
    cases more with
    | false =>
      cases h
      exact ⟨[], (List.append_nil _).symm, .nil hnext⟩
    | true =>
      rcases exists_of_bind_eq_ok h with ⟨⟨a, behind⟩, hread, h⟩
      rcases ih h with ⟨items, hall, hitems⟩
      refine ⟨a :: items, ?_, .cons hnext hread hitems⟩
      rw [hall, List.reverse_cons, List.append_assoc, List.singleton_append]

end

/-! ## Scalars -/

/-- A scalar that is read is the value of its text. -/
theorem eq_of_readFlat {depth : Nat} {expected : String} {c c₁ c₂ : Cursor} {v v' : Value}
    (hvalue : readValue depth c = .ok (v, c₁)) (h : readFlat expected c = .ok (v', c₂)) :
    v' = v ∧ c₂ = c₁ := by
  rcases cases_of_readValue hvalue with ⟨hopens, hscalar⟩ | ⟨hopens, -⟩
  · rw [(readFlat_of_opens expected).1 hopens] at h
    cases hscalar.symm.trans h
    exact ⟨rfl, rfl⟩
  · have hnone := (readFlat_of_opens expected).2 hopens
    rw [h] at hnone
    cases hnone

/-- A value counts if it is there and not null. -/
def Value.nonNull? (v? : Option Value) : Option Value :=
  v?.filter fun v => !v.isNull

theorem eq_of_readText {depth : Nat} {c c₁ c₂ : Cursor} {v : Value} {s? : Option String}
    (hvalue : readValue depth c = .ok (v, c₁)) (h : readText c = .ok (s?, c₂)) :
    c₂ = c₁ ∧ s?.map .string = Value.nonNull? (some v) := by
  rcases exists_of_bind_eq_ok h with ⟨⟨v', behind⟩, hflat, h⟩
  rcases eq_of_readFlat hvalue hflat with ⟨rfl, rfl⟩
  cases v' with
  | null | string =>
    cases h
    exact ⟨rfl, rfl⟩
  | bool | number | array | object => cases h

theorem eq_of_readFlag {depth : Nat} {c c₁ c₂ : Cursor} {v : Value} {b? : Option Bool}
    (hvalue : readValue depth c = .ok (v, c₁)) (h : readFlag c = .ok (b?, c₂)) :
    c₂ = c₁ ∧ b?.map .bool = Value.nonNull? (some v) := by
  rcases exists_of_bind_eq_ok h with ⟨⟨v', behind⟩, hflat, h⟩
  rcases eq_of_readFlat hvalue hflat with ⟨rfl, rfl⟩
  cases v' with
  | null | bool =>
    cases h
    exact ⟨rfl, rfl⟩
  | string | number | array | object => cases h

/-! ## Records -/

namespace Record

variable {σ κ : Type}

/-- How the structure that is read speaks about the values of its keys: reading the value of a
key ends where the value does and changes what is said about that key alone. -/
structure Follows (r : Record σ κ) (depth : Nat) (tells : κ → Option Value → σ → Prop) : Prop where
  start : ∀ key, tells key none r.start
  field : ∀ {key s c v c₁ s' c₂}, readValue depth c = .ok (v, c₁) →
    r.readField depth key s c = .ok (s', c₂) → c₂ = c₁ ∧ tells key (some v) s' ∧
      ∀ {key' v?}, key' ≠ key → tells key' v? s → tells key' v? s'

/-- The value of a key: the member of its name, or the element at its place. -/
def valueOf? [BEq κ] (r : Record σ κ) (key : κ) : Value → Option Value
  | .object members => members.lookup (r.name key)
  | .array items => (r.keys.zip items).lookup key
  | _ => none

section
variable {r : Record σ κ} {depth : Nat} {tells : κ → Option Value → σ → Prop}

/-- A record that follows the members so far follows the next one as well. -/
theorem says_of_readMember (hfollows : r.Follows depth tells)
    (hinjective : Function.Injective r.name) (hkeys : ∀ key, key ∈ r.keys)
    {members members' : List (String × Value)} {state state' : σ × List String} {name : String}
    {c c₁ c₂ : Cursor} (htells : ∀ key, tells key (members.lookup (r.name key)) state.1)
    (hvalue : storeMember depth members name c = .ok (members', c₁))
    (h : r.readMember depth state name c = .ok (state', c₂)) :
    c₂ = c₁ ∧ ∀ key, tells key (members'.lookup (r.name key)) state'.1 := by
  rcases exists_of_bind_eq_ok hvalue with ⟨value, hcolon, hvalue⟩
  rcases exists_of_bind_eq_ok hvalue with ⟨⟨v, _⟩, hvalue, heq⟩
  cases heq
  unfold readMember at h
  split at h
  · rename_i hunknown
    rcases exists_of_bind_eq_ok h with ⟨_, hcolon', h⟩
    cases hcolon.symm.trans hcolon'
    rcases exists_of_bind_eq_ok h with ⟨behind, hskip, h⟩
    cases (skipValue_of_readValue hvalue).symm.trans hskip
    cases h
    refine ⟨rfl, ?_⟩
    intro key
    have hne : r.name key ≠ name := by
      intro heq
      rw [(key?_eq_some hinjective hkeys).mpr heq] at hunknown
      cases hunknown
    rw [Value.lookup_insertMember, if_neg hne]
    exact htells key
  · rename_i known hknown
    have hname := (key?_eq_some hinjective hkeys).mp hknown
    split at h
    · cases h
    · rcases exists_of_bind_eq_ok h with ⟨_, hcolon', h⟩
      cases hcolon.symm.trans hcolon'
      rcases exists_of_bind_eq_ok h with ⟨⟨s', behind⟩, hread, h⟩
      cases h
      rcases hfollows.field hvalue hread with ⟨rfl, hfield, hothers⟩
      refine ⟨rfl, ?_⟩
      intro key
      rw [Value.lookup_insertMember]
      by_cases hkey : key = known
      · rw [if_pos (by rw [hkey, hname]), hkey]
        exact hfield
      · have hne : r.name key ≠ name := fun heq => hkey (hinjective (heq.trans hname.symm))
        rw [if_neg hne]
        exact hothers hkey (htells key)

/-- A record that is read from an object follows its members. -/
theorem says_of_readObject (hfollows : r.Follows depth tells)
    (hinjective : Function.Injective r.name) (hkeys : ∀ key, key ∈ r.keys) {steps steps' : Nat}
    {members : List (String × Value)} {s : σ} {seen : List String} {c c₁ c₂ : Cursor}
    (hvalue : readMembers (storeMember depth) steps true [] c = .ok (members, c₁))
    (h : readMembers (r.readMember depth) steps' true (r.start, []) c = .ok ((s, seen), c₂)) :
    c₂ = c₁ ∧ ∀ key, tells key (members.lookup (r.name key)) s :=
  readMembers_lockstep
    (fun members (state : σ × List String) =>
      ∀ key, tells key (members.lookup (r.name key)) state.1)
    (says_of_readMember hfollows hinjective hkeys) hfollows.start hvalue h

/-- The closing bracket of an array that ends. -/
theorem exists_of_endElements {c c' : Cursor} (h : endElements c = .ok c') :
    c' = c.skipSpace.next ∧ ∃ rest, c.skipSpace.rest = ']' :: rest := by
  unfold endElements at h
  dsimp only at h
  split at h
  · cases h
  · rename_i heq
    split at h
    · rename_i hch
      cases h
      exact ⟨rfl, _, hch ▸ heq⟩
    · split at h
      · split at h <;> cases h
      · cases h

/-- At its closing bracket an array ends. -/
theorem endElements_of_bracket {c : Cursor} {rest : List Char}
    (h : c.skipSpace.rest = ']' :: rest) : endElements c = .ok c.skipSpace.next := by
  unfold endElements
  simp only [h, if_true]

/-- At its closing bracket an array has no more elements. -/
theorem nextItem_of_bracket (first : Bool) {c : Cursor} {rest : List Char}
    (h : c.skipSpace.rest = ']' :: rest) : nextItem first c = .ok (false, c.skipSpace) := by
  unfold nextItem
  simp only [h, if_true]

/-- A record that is read from an array follows its elements. -/
theorem says_of_readElements [DecidableEq κ] (hfollows : r.Follows depth tells) {first : Bool}
    {items : List Value} {c c₁ c₂ c₃ : Cursor}
    (hvalue : Elements (readValue depth) first c items c₁) {keys : List κ} (hnodup : keys.Nodup)
    {index : Nat} {s s' : σ} (hindex : (index == 0) = first)
    (h : r.readElements depth keys index s c = .ok (s', c₂)) (hend : endElements c₂ = .ok c₃) :
    c₃ = c₁ ∧ (∀ key v?, key ∉ keys → tells key v? s → tells key v? s') ∧
      ∀ key, tells key none s → tells key ((keys.zip items).lookup key) s' := by
  induction hvalue generalizing keys index s with
  | @nil first c bracket hbracket =>
    rcases eq_skipSpace_of_nextItem hbracket with ⟨rfl, -⟩
    cases keys with
    | nil =>
      cases h
      rcases exists_of_endElements hend with ⟨rfl, -⟩
      exact ⟨rfl, fun _ _ _ hs => hs, fun _ hs => hs⟩
    | cons key keys =>
      rcases exists_of_bind_eq_ok h with ⟨⟨more, next⟩, hnext, h⟩
      rw [hindex] at hnext
      cases hbracket.symm.trans hnext
      cases hearly : r.mayEndEarly with
      | false =>
        simp only [hearly] at h
        cases h
      | true =>
        simp only [hearly] at h
        cases h
        rcases exists_of_endElements hend with ⟨rfl, -⟩
        exact ⟨by rw [c.skipSpace_skipSpace], fun _ _ _ hs => hs, fun _ hs => hs⟩
  | @cons first c item behind c₁ v items hnext hread hrest ih =>
    cases keys with
    | nil =>
      cases h
      rcases exists_of_endElements hend with ⟨-, rest, hbracket⟩
      cases (nextItem_of_bracket first hbracket).symm.trans hnext
    | cons key keys =>
      rcases exists_of_bind_eq_ok h with ⟨⟨more, next⟩, hnext', h⟩
      rw [hindex] at hnext'
      cases hnext.symm.trans hnext'
      rcases exists_of_bind_eq_ok h with ⟨⟨s₁, behind'⟩, hfield, h⟩
      rcases hfollows.field hread hfield with ⟨rfl, hfield, hothers⟩
      rw [List.nodup_cons] at hnodup
      have hindex' : (index + 1 == 0) = false := rfl
      rcases ih hnodup.2 hindex' h with ⟨hplace, hkept, hsaid⟩
      refine ⟨hplace, ?_, ?_⟩
      · intro key' v? hkey' hs
        rw [List.mem_cons, not_or] at hkey'
        exact hkept key' v? hkey'.2 (hothers hkey'.1 hs)
      · intro key' hs
        rw [List.zip_cons_cons, List.lookup_cons]
        by_cases hkey' : key' = key
        · rw [beq_iff_eq.mpr hkey', hkey']
          exact hkept key (some v) hnodup.1 hfield
        · rw [beq_eq_false_iff_ne.mpr hkey']
          exact hsaid key' (hothers hkey' hs)

/-- A record follows the value of its text. -/
theorem says_of_read [DecidableEq κ] (hfollows : r.Follows depth tells)
    (hinjective : Function.Injective r.name) (hkeys : ∀ key, key ∈ r.keys) (hnodup : r.keys.Nodup)
    {v : Value} {s : σ} {c c₁ c₂ : Cursor} (hvalue : readValue (depth + 1) c = .ok (v, c₁))
    (h : r.read (depth + 1) c = .ok (s, c₂)) :
    c₂ = c₁ ∧ ∀ key, tells key (r.valueOf? key v) s := by
  rw [readValue] at hvalue
  rw [read] at h
  dsimp only at hvalue h
  split at hvalue
  · rename_i heq
    rcases exists_of_map_eq_ok hvalue with ⟨⟨items, behind⟩, hitems, heq'⟩
    cases heq'
    simp only [heq] at h
    unfold readArray at h
    split at h
    · rename_i s' c' helements
      rcases exists_of_map_eq_ok h with ⟨c₃, hend, heq'⟩
      cases heq'
      rcases exists_elements hitems with ⟨all, rfl, hall⟩
      rcases says_of_readElements hfollows hall hnodup rfl helements hend with ⟨hplace, -, hsaid⟩
      exact ⟨hplace, fun key => hsaid key (hfollows.start key)⟩
    · cases h
  · rename_i heq
    rcases exists_of_map_eq_ok hvalue with ⟨⟨members, behind⟩, hmembers, heq'⟩
    cases heq'
    simp only [heq] at h
    unfold readObject at h
    split at h
    · rename_i s' seen c' hread
      cases h
      exact says_of_readObject hfollows hinjective hkeys hmembers hread
    · cases h
  · rename_i hlist hobject
    split at h
    · rename_i heq
      exact (hlist _ heq).elim
    · rename_i heq
      exact (hobject _ heq).elim
    · exact absurd h (refuseScalar_ne_ok r)

end

end Record

end GraphFilter.Json
