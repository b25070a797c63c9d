import GraphFilter.Json.Fields

/-!
# Keys of objects

A value that was read from a text never holds one key twice in an object: a member
whose key is there already takes the place of the one before.

Main results:

- Theorem {lit}`Value.distinctKeys_of_readValue`: the keys of all objects in a value that
  was read are distinct.
- Theorem {lit}`exists_of_readConverted`: what is converted was read from the text.
-/

namespace GraphFilter.Json

/-! ## Steps that succeed -/

section
variable {ε α β : Type}

/-- Two steps that succeed. -/
theorem exists_of_bind_eq_ok {x : Except ε α} {f : α → Except ε β} {b : β}
    (h : x >>= f = .ok b) : ∃ a, x = .ok a ∧ f a = .ok b := by
  cases x with
  | ok a => exact ⟨a, rfl, h⟩
  | error e => cases h

/-- Two steps of which one fails. -/
theorem of_bind_eq_error {x : Except ε α} {f : α → Except ε β} {e : ε} (h : x >>= f = .error e) :
    x = .error e ∨ ∃ a, x = .ok a ∧ f a = .error e := by
  cases x with
  | ok a => exact .inr ⟨a, rfl, h⟩
  | error e' =>
    cases h
    exact .inl rfl

theorem exists_of_map_eq_ok {x : Except ε α} {f : α → β} {b : β} (h : x.map f = .ok b) :
    ∃ a, x = .ok a ∧ f a = b := by
  cases x with
  | ok a =>
    cases h
    exact ⟨a, rfl, rfl⟩
  | error e => cases h

end

/-! ## Distinct keys -/

/-- Within the value no object has two members of one key. -/
inductive Value.DistinctKeys : Value → Prop where
  | null : DistinctKeys null
  | bool (b : Bool) : DistinctKeys (bool b)
  | number (n : Number) : DistinctKeys (number n)
  | string (s : String) : DistinctKeys (string s)
  | array {items : List Value} (hitems : ∀ item ∈ items, DistinctKeys item) :
      DistinctKeys (array items)
  | object {members : List (String × Value)} (hkeys : (members.map Prod.fst).Nodup)
      (hmembers : ∀ member ∈ members, DistinctKeys member.2) : DistinctKeys (object members)

/-- Whether the members of an object have distinct keys, and so have all objects in them. -/
def DistinctMembers (members : List (String × Value)) : Prop :=
  (members.map Prod.fst).Nodup ∧ ∀ member ∈ members, member.2.DistinctKeys

theorem DistinctMembers.nil : DistinctMembers [] :=
  ⟨List.nodup_nil, by simp⟩

/-- A value that is stored comes from the outside or was there before. -/
theorem Value.mem_insertMember {key : String} {value : Value} {members : List (String × Value)}
    {member : String × Value} (h : member ∈ insertMember key value members) :
    member = (key, value) ∨ member ∈ members := by
  induction members with
  | nil => simpa [insertMember] using h
  | cons first rest ih =>
    rcases first with ⟨k, v⟩
    rw [insertMember] at h
    split at h
    · rw [List.mem_cons] at h
      exact h.imp_right (List.mem_cons_of_mem _)
    · rw [List.mem_cons] at h
      rcases h with h | h
      · exact Or.inr (h ▸ List.mem_cons_self ..)
      · exact (ih h).imp_right (List.mem_cons_of_mem _)

/-- Storing a member keeps keys distinct. -/
theorem DistinctMembers.insertMember {members : List (String × Value)}
    (h : DistinctMembers members) (key : String) {value : Value} (hvalue : value.DistinctKeys) :
    DistinctMembers (Value.insertMember key value members) := by
  constructor
  · rw [Value.keys_insertMember]
    split
    · exact h.1
    · rename_i hkey
      rw [List.nodup_append]
      refine ⟨h.1, by simp, ?_⟩
      rintro k hk k' hk' rfl
      rw [List.mem_singleton] at hk'
      exact hkey (hk' ▸ hk)
  · intro member hmember
    rcases Value.mem_insertMember hmember with rfl | hmember
    · exact hvalue
    · exact h.2 member hmember

/-! ## Reading -/

/-- What holds of each element that is read holds of all. -/
theorem forall_of_readItems {α : Type} {p : α → Prop}
    {read : Cursor → Except Failure (α × Cursor)}
    (hread : ∀ c a c', read c = .ok (a, c') → p a) {steps : Nat} {taken items : List α}
    {c c' : Cursor} (htaken : ∀ a ∈ taken, p a)
    (h : readItems read steps taken c = .ok (items, c')) : ∀ a ∈ items, p a := by
  induction steps generalizing taken c with
  | zero => cases h
  | succ steps ih =>
    rcases exists_of_bind_eq_ok h with ⟨⟨more, next⟩, -, h⟩
    cases more with
    | false =>
      cases h
      simpa using htaken
    | true =>
      rcases exists_of_bind_eq_ok h with ⟨⟨item, behind⟩, hitem, h⟩
      refine ih ?_ h
      rw [List.forall_mem_cons]
      exact ⟨hread _ _ _ hitem, htaken⟩

/-- What each member preserves, an object preserves. -/
theorem invariant_of_readMembers {σ : Type} {p : σ → Prop}
    {read : σ → String → Cursor → Except Failure (σ × Cursor)}
    (hread : ∀ s key c s' c', p s → read s key c = .ok (s', c') → p s') {steps : Nat}
    {first : Bool} {s s' : σ} {c c' : Cursor} (hs : p s)
    (h : readMembers read steps first s c = .ok (s', c')) : p s' := by
  induction steps generalizing first s c with
  | zero => cases h
  | succ steps ih =>
    rcases exists_of_bind_eq_ok h with ⟨⟨key, next⟩, -, h⟩
    cases key with
    | none =>
      cases h
      exact hs
    | some key =>
      rcases exists_of_bind_eq_ok h with ⟨⟨state, behind⟩, hmember, h⟩
      exact ih (hread _ _ _ _ _ hs hmember) h

/-- A value that is neither an array nor an object has no keys. -/
theorem Value.distinctKeys_of_readScalar {c c' : Cursor} {v : Value}
    (h : readScalar c = .ok (v, c')) : v.DistinctKeys := by
  unfold readScalar at h
  split at h
  · cases h
  · split at h
    · rcases exists_of_map_eq_ok h with ⟨_, -, heq⟩
      cases heq
      exact DistinctKeys.null
    · split at h
      · rcases exists_of_map_eq_ok h with ⟨_, -, heq⟩
        cases heq
        exact DistinctKeys.bool true
      · split at h
        · rcases exists_of_map_eq_ok h with ⟨_, -, heq⟩
          cases heq
          exact DistinctKeys.bool false
        · split at h
          · rcases exists_of_map_eq_ok h with ⟨_, -, heq⟩
            cases heq
            exact DistinctKeys.string _
          · split at h
            · rcases exists_of_map_eq_ok h with ⟨_, -, heq⟩
              cases heq
              exact DistinctKeys.number _
            · cases h

/-- In a value that was read all keys are distinct. -/
theorem Value.distinctKeys_of_readValue {depth : Nat} {c c' : Cursor} {v : Value}
    (h : readValue depth c = .ok (v, c')) : v.DistinctKeys := by
  induction depth generalizing c c' v with
  | zero =>
    unfold readValue at h
    dsimp only at h
    split at h
    · cases h
    · exact distinctKeys_of_readScalar h
  | succ depth ih =>
    unfold readValue at h
    dsimp only at h
    split at h
    · rcases exists_of_map_eq_ok h with ⟨⟨items, _⟩, hitems, heq⟩
      cases heq
      exact DistinctKeys.array (forall_of_readItems (fun _ _ _ => ih) (by simp) hitems)
    · rcases exists_of_map_eq_ok h with ⟨⟨members, _⟩, hmembers, heq⟩
      cases heq
      have hdistinct : DistinctMembers members := by
        refine invariant_of_readMembers ?_ DistinctMembers.nil hmembers
        intro s key c s' c' hs hmember
        rcases exists_of_bind_eq_ok hmember with ⟨_, -, hmember⟩
        rcases exists_of_bind_eq_ok hmember with ⟨⟨value, _⟩, hvalue, hmember⟩
        cases hmember
        exact hs.insertMember key (ih hvalue)
      exact DistinctKeys.object hdistinct.1 hdistinct.2
    · exact distinctKeys_of_readScalar h

/-! ## Whole texts -/

theorem exists_of_readWhole? {α : Type} {read : Cursor → Except Failure (α × Cursor)}
    {text : String} {a : α} (h : readWhole? read text = .ok a) :
    ∃ c, read (Cursor.start text) = .ok (a, c) := by
  unfold readWhole? at h
  cases hread : read (Cursor.start text) with
  | error failure =>
    rw [hread] at h
    cases h
  | ok result =>
    rcases result with ⟨value, c⟩
    rw [hread] at h
    dsimp only at h
    split at h
    · cases h
      exact ⟨c, rfl⟩
    · cases h

/-- What is converted was read from the text. -/
theorem exists_of_readConverted {α : Type} {depth : Nat} {convert : Value → Except Fault α}
    {c c' : Cursor} {a : α} (h : readConverted depth convert c = .ok (a, c')) :
    ∃ v : Value, v.DistinctKeys ∧ convert v = .ok a := by
  rcases exists_of_bind_eq_ok h with ⟨⟨v, next⟩, hread, h⟩
  refine ⟨v, Value.distinctKeys_of_readValue hread, ?_⟩
  dsimp only at h
  split at h
  · rename_i result hconvert
    cases h
    exact hconvert
  · cases h

end GraphFilter.Json
