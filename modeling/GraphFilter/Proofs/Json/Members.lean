import GraphFilter.Json.Records
import GraphFilter.Proofs.Json.Skipped

/-!
# Members as they are written

The value of a text keeps one member for each key.  The members that are written, repeated
ones included, and the characters of their values are collected by the same loop.  Every
loop over the members of an object that reads what follows a key as a value does, or refuses
it, is a run over these members.

Main results:

- Theorem {lit}`toOption_readMembers`: a loop over members is a run over those that are written.
- Theorem {lit}`exists_parseMembers`: the value of a text that is an object, from its members.
- Theorem {lit}`Record.toOption_read`: so is the reading of a record.
-/

namespace GraphFilter.Json

/-- Two steps give a result if both do. -/
theorem toOption_bind {ε α β : Type} (x : Except ε α) (f : α → Except ε β) :
    (x >>= f).toOption = x.toOption.bind fun a => (f a).toOption := by
  cases x <;> rfl

/-! ## Members -/

/-- The characters between two places in a text. -/
def Cursor.upTo (c c' : Cursor) : List Char :=
  c.rest.take (c.rest.length - c'.rest.length)

/-- A member of an object as it is written: its key, the characters of its value, and the
value. -/
structure Member where
  key : String
  source : List Char
  value : Value

/-- Read the value of a member. -/
def readMemberValue (depth : Nat) (key : String) (c : Cursor) : Except Failure (Member × Cursor) :=
  let c := c.skipSpace
  (readValue depth c).map fun (value, behind) => (⟨key, c.upTo behind, value⟩, behind)

/-- Collect a member: read what follows its key. -/
def collectMember (depth : Nat) (members : List Member) (key : String) (c : Cursor) :
    Except Failure (List Member × Cursor) := do
  let c ← readColon c
  let (member, c) ← readMemberValue depth key c
  return (members ++ [member], c)

/-- Collect the members of an object in which `depth` more arrays and objects may be nested. -/
def collectMembers (depth : Nat) (c : Cursor) : Except Failure (List Member × Cursor) :=
  let c := c.skipSpace
  match c.rest with
  | '\x7b' :: _ => readMembers (collectMember depth) (c.rest.length + 1) true [] c.next
  | _ => c.failPeek .expectedValue

/-- The members of the object that a text is, in the order in which they are written. -/
def parseMembers (text : String) : Except Error (List Member) :=
  readWhole? (collectMembers (depthLimit - 1)) text

theorem Value.isNull_of_ne {v : Value} (h : v ≠ .null) : v.isNull = false := by
  cases v with
  | null => exact absurd rfl h
  | bool | number | string | array | object => rfl

/-- A member counts if it is there and its value is not null. -/
def Member.nonNull? (member? : Option Member) : Option Member :=
  member?.filter fun m => !m.value.isNull

/-- The first member of a name, if it counts. -/
def present? (name : String) (members : List Member) : Option Member :=
  Member.nonNull? (members.find? fun m => m.key == name)

theorem Member.nonNull?_of_null {m : Member} (h : m.value = .null) : nonNull? (some m) = none := by
  simp [nonNull?, h, Value.isNull]

theorem Member.nonNull?_of_ne {m : Member} (h : m.value ≠ .null) :
    nonNull? (some m) = some m := by
  simp [nonNull?, Value.isNull_of_ne h]

/-! ## Loops over members -/

section
variable {σ : Type} {read : σ → String → Cursor → Except Failure (σ × Cursor)} {depth : Nat}

/-- Whether a loop takes members in like this: it goes on behind a member, or refuses it. -/
def Takes (read : σ → String → Cursor → Except Failure (σ × Cursor)) (depth : Nat)
    (take : σ → Member → Option σ) : Prop :=
  ∀ s key c value m c', readColon c = .ok value → readMemberValue depth key value = .ok (m, c') →
    (read s key c).toOption = (take s m).map (·, c')

/-- A member that is collected was read behind the colon that follows its key. -/
theorem exists_of_collectMember {members members' : List Member} {key : String} {c c' : Cursor}
    (h : collectMember depth members key c = .ok (members', c')) :
    ∃ value m, readColon c = .ok value ∧ readMemberValue depth key value = .ok (m, c') ∧
      members' = members ++ [m] := by
  rcases exists_of_bind_eq_ok h with ⟨value, hcolon, h⟩
  rcases exists_of_bind_eq_ok h with ⟨⟨m, behind⟩, hvalue, h⟩
  cases h
  exact ⟨value, m, hcolon, hvalue, rfl⟩

theorem length_readMemberValue_lt {key : String} {c c' : Cursor} {m : Member}
    (h : readMemberValue depth key c = .ok (m, c')) : c'.rest.length < c.rest.length := by
  rcases exists_of_map_eq_ok h with ⟨⟨value, behind⟩, hvalue, heq⟩
  cases heq
  exact (length_readValue_lt hvalue).trans_le c.length_skipSpace_le

/-- A loop over members is a run over those that are written. -/
theorem toOption_readMembers {take : σ → Member → Option σ} (htake : Takes read depth take)
    {count : Nat} {first : Bool} {before after : List Member} {c c' : Cursor}
    (h : readMembers (collectMember depth) count first before c = .ok (after, c')) :
    ∃ written, after = before ++ written ∧ ∀ s steps, c.rest.length < steps →
      (readMembers read steps first s c).toOption = (written.foldlM take s).map (·, c') := by
  induction count generalizing first before c with
  | zero => cases h
  | succ count ih =>
    rcases exists_of_bind_eq_ok h with ⟨⟨key, next⟩, hnext, h⟩
    cases key with
    | none =>
      cases h
      refine ⟨[], (List.append_nil _).symm, ?_⟩
      intro s steps hsteps
      obtain ⟨n, rfl⟩ : ∃ n, steps = n + 1 := Nat.exists_eq_succ_of_ne_zero (by omega)
      rw [readMembers, hnext]
      rfl
    | some key =>
      rcases exists_of_bind_eq_ok h with ⟨⟨members, behind⟩, hmember, h⟩
      rcases exists_of_collectMember hmember with ⟨value, m, hcolon, hvalue, rfl⟩
      rcases ih h with ⟨written, hafter, hrun⟩
      refine ⟨m :: written, by rw [hafter, List.append_assoc, List.singleton_append], ?_⟩
      intro s steps hsteps
      obtain ⟨n, rfl⟩ : ∃ n, steps = n + 1 := Nat.exists_eq_succ_of_ne_zero (by omega)
      have hkey := length_nextKey_lt hnext
      have hle := length_readColon_le hcolon
      have hlt := length_readMemberValue_lt hvalue
      have htaken := htake s key next value m behind hcolon hvalue
      rw [readMembers, hnext, List.foldlM_cons]
      change (read s key next >>= fun x => readMembers read n false x.1 x.2).toOption = _
      rw [toOption_bind, htaken]
      cases take s m with
      | none => rfl
      | some s' => exact hrun s' n (by omega)

/-- If a loop that reads values succeeds, the members can be collected. -/
theorem exists_collected (hread : ∀ s key c s' c', read s key c = .ok (s', c') →
      ∃ value m, readColon c = .ok value ∧ readMemberValue depth key value = .ok (m, c'))
    {count : Nat} {first : Bool} {s s' : σ} {c c' : Cursor}
    (h : readMembers read count first s c = .ok (s', c')) (before : List Member) :
    ∃ written, readMembers (collectMember depth) count first before c = .ok (written, c') := by
  induction count generalizing first s c before with
  | zero => cases h
  | succ count ih =>
    rcases exists_of_bind_eq_ok h with ⟨⟨key, next⟩, hnext, h⟩
    rw [readMembers, hnext]
    cases key with
    | none =>
      cases h
      exact ⟨before, rfl⟩
    | some key =>
      rcases exists_of_bind_eq_ok h with ⟨⟨state, behind⟩, hmember, h⟩
      rcases hread _ _ _ _ _ hmember with ⟨value, m, hcolon, hvalue⟩
      have hcollect : collectMember depth before key next = .ok (before ++ [m], behind) := by
        rw [collectMember, hcolon]
        change (readMemberValue depth key value >>= _) = _
        rw [hvalue]
        rfl
      rcases ih h (before ++ [m]) with ⟨written, hrest⟩
      refine ⟨written, ?_⟩
      change (collectMember depth before key next >>= _) = _
      rw [hcollect]
      exact hrest

end

/-! ## Objects -/

/-- Spaces in front of a value are passed over anyway. -/
theorem readValue_skipSpace (depth : Nat) (c : Cursor) :
    readValue depth c.skipSpace = readValue depth c := by
  cases depth with
  | zero => rw [readValue, readValue, c.skipSpace_skipSpace]
  | succ depth => rw [readValue, readValue, c.skipSpace_skipSpace]

theorem readValue_of_readMemberValue {depth : Nat} {key : String} {c c' : Cursor} {m : Member}
    (h : readMemberValue depth key c = .ok (m, c')) :
    readValue depth c = .ok (m.value, c') ∧ m.key = key ∧ m.source = c.skipSpace.upTo c' := by
  rcases exists_of_map_eq_ok h with ⟨⟨value, behind⟩, hvalue, heq⟩
  cases heq
  rw [readValue_skipSpace] at hvalue
  exact ⟨hvalue, rfl, rfl⟩

theorem readMemberValue_of_readValue {depth : Nat} (key : String) {c c' : Cursor} {v : Value}
    (h : readValue depth c = .ok (v, c')) :
    readMemberValue depth key c = .ok (⟨key, c.skipSpace.upTo c', v⟩, c') := by
  rw [readMemberValue, readValue_skipSpace, h]
  rfl

/-- Store a member of a value: read what follows its key. -/
def storeMember (depth : Nat) (members : List (String × Value)) (key : String) (c : Cursor) :
    Except Failure (List (String × Value) × Cursor) := do
  let c ← readColon c
  let (value, c) ← readValue depth c
  return (Value.insertMember key value members, c)

theorem takes_storeMember (depth : Nat) : Takes (storeMember depth) depth fun members m =>
    pure (Value.insertMember m.key m.value members) := by
  intro members key c value m c' hcolon hvalue
  rcases readValue_of_readMemberValue hvalue with ⟨hread, rfl, -⟩
  rw [storeMember, hcolon]
  change (readValue depth value >>= _).toOption = _
  rw [hread]
  rfl

/-- The members of a value, from those that are written: of one key the last one counts. -/
def Value.ofWritten (written : List Member) : List (String × Value) :=
  written.foldl (fun members m => insertMember m.key m.value members) []

/-- A value that opens with neither bracket is no array and no object. -/
theorem ne_of_readScalar {c c' : Cursor} {v : Value} (h : readScalar c = .ok (v, c')) :
    (∀ items, v ≠ .array items) ∧ ∀ members, v ≠ .object members := by
  have hall : ∀ result : Value × Cursor, readScalar c = .ok result →
      (∀ items, result.1 ≠ .array items) ∧ ∀ members, result.1 ≠ .object members := by
    intro result h
    unfold readScalar at h
    split at h
    · cases h
    · repeat' split at h
      all_goals first
        | cases h
        | rcases exists_of_map_eq_ok h with ⟨_, -, rfl⟩
      all_goals simp
  exact hall _ h

/-- A member of a new key goes to the end. -/
theorem Value.insertMember_of_not_mem {key : String} (value : Value)
    {members : List (String × Value)} (h : key ∉ members.map Prod.fst) :
    insertMember key value members = members ++ [(key, value)] := by
  induction members with
  | nil => rfl
  | cons member rest ih =>
    rw [List.map_cons, List.mem_cons, not_or] at h
    rw [insertMember, if_neg (Ne.symm h.1), ih h.2]
    rfl

/-- If no key is repeated, the members of the value are those that are written. -/
theorem Value.ofWritten_eq_map {written : List Member}
    (h : (written.map Member.key).Nodup) :
    ofWritten written = written.map fun m => (m.key, m.value) := by
  have hall (written : List Member) (members : List (String × Value))
      (hnodup : (members.map Prod.fst ++ written.map Member.key).Nodup) :
      written.foldl (fun members m => insertMember m.key m.value members) members =
        members ++ written.map fun m => (m.key, m.value) := by
    induction written generalizing members with
    | nil => rw [List.foldl_nil, List.map_nil, List.append_nil]
    | cons m written ih =>
      rw [List.map_cons, ← List.singleton_append, ← List.append_assoc] at hnodup
      have hnew : insertMember m.key m.value members = members ++ [(m.key, m.value)] := by
        refine insertMember_of_not_mem _ ?_
        intro hmem
        have hdisjoint := (List.nodup_append.mp (List.nodup_append.mp hnodup).1).2.2
        exact hdisjoint _ hmem _ (List.mem_singleton_self _) rfl
      rw [List.foldl_cons, hnew, ih]
      · rw [List.append_assoc, List.singleton_append, List.map_cons]
      · rw [List.map_append]
        exact hnodup
  exact hall written [] h

/-- The members of an object that is read, from those that are written. -/
theorem exists_collectMembers {depth : Nat} {c c' : Cursor} {members : List (String × Value)}
    (h : readValue (depth + 1) c = .ok (.object members, c')) :
    ∃ written, collectMembers depth c = .ok (written, c') ∧ members = Value.ofWritten written := by
  unfold readValue at h
  dsimp only at h
  split at h
  · rcases exists_of_map_eq_ok h with ⟨_, -, heq⟩
    cases heq
  · rename_i heq
    rcases exists_of_map_eq_ok h with ⟨⟨members, behind⟩, hmembers, heq'⟩
    cases heq'
    have hread : ∀ s key c s' c', storeMember depth s key c = .ok (s', c') →
        ∃ value m, readColon c = .ok value ∧ readMemberValue depth key value = .ok (m, c') := by
      intro s key c s' c' hmember
      rcases exists_of_bind_eq_ok hmember with ⟨value, hcolon, hmember⟩
      rcases exists_of_bind_eq_ok hmember with ⟨⟨v, _⟩, hvalue, hmember⟩
      cases hmember
      exact ⟨value, _, hcolon, readMemberValue_of_readValue key hvalue⟩
    rcases exists_collected hread hmembers [] with ⟨written, hwritten⟩
    rcases toOption_readMembers (takes_storeMember depth) hwritten with ⟨_, rfl, hrun⟩
    have hstored := hrun [] (c.skipSpace.rest.length + 1)
      ((Cursor.length_next_lt heq).trans (Nat.lt_succ_self _))
    refine ⟨written, ?_, ?_⟩
    · rw [collectMembers]
      simp only [heq]
      rw [heq] at hwritten
      exact hwritten
    · have hboth := congrArg Except.toOption hmembers
      change (readMembers (storeMember depth) _ true [] _).toOption = _ at hboth
      rw [hstored, List.foldlM_pure] at hboth
      cases hboth
      rfl
  · exact absurd rfl ((ne_of_readScalar h).2 members)

/-- A whole text is read if nothing but spaces is left behind. -/
theorem readWhole?_eq_ok {α : Type} {read : Cursor → Except Failure (α × Cursor)} {text : String}
    {a : α} : readWhole? read text = .ok a ↔
      ∃ c, read (Cursor.start text) = .ok (a, c) ∧ c.skipSpace.rest.isEmpty = true := by
  rw [readWhole?]
  cases read (Cursor.start text) with
  | error failure => simp
  | ok result =>
    rcases result with ⟨value, c⟩
    dsimp only
    split
    · rename_i hend
      constructor
      · intro h
        cases h
        exact ⟨c, rfl, hend⟩
      · rintro ⟨_, heq, -⟩
        cases heq
        rfl
    · rename_i hend
      constructor
      · intro h
        cases h
      · rintro ⟨_, heq, hend'⟩
        cases heq
        exact absurd hend' hend

/-- The value of a text that is an object, from the members that are written. -/
theorem exists_parseMembers {text : String} {members : List (String × Value)}
    (h : parse text = .ok (.object members)) :
    ∃ written, parseMembers text = .ok written ∧ members = Value.ofWritten written := by
  rcases readWhole?_eq_ok.mp h with ⟨c, hread, hend⟩
  rcases exists_collectMembers hread with ⟨written, hwritten, hmembers⟩
  exact ⟨written, readWhole?_eq_ok.mpr ⟨c, hwritten, hend⟩, hmembers⟩

/-! ## Records -/

namespace Record

variable {σ κ : Type}

/-- Whether the fields of a record are read like this. -/
def ReadsFields (r : Record σ κ) (depth : Nat) (field : κ → Member → σ → Option σ) : Prop :=
  ∀ key s name c m c', readMemberValue depth name c = .ok (m, c') →
    (r.readField depth key s c).toOption = (field key m s).map (·, c')

/-- Take a member into a record.  The state is the structure so far and the names of the known
members that were taken. -/
def take (r : Record σ κ) (field : κ → Member → σ → Option σ) (state : σ × List String)
    (m : Member) : Option (σ × List String) :=
  match r.key? m.key with
  | none => some state
  | some key =>
    if state.2.contains m.key then none
    else (field key m state.1).map fun s => (s, m.key :: state.2)

theorem takes_readMember {r : Record σ κ} {depth : Nat} {field : κ → Member → σ → Option σ}
    (hfield : r.ReadsFields depth field) : Takes (r.readMember depth) depth (r.take field) := by
  intro state name c value m c' hcolon hvalue
  rcases readValue_of_readMemberValue hvalue with ⟨hread, hname, -⟩
  rw [readMember, take, hname]
  cases hkey : r.key? name with
  | none =>
    rw [toOption_bind, hcolon]
    change (skipValue value >>= _).toOption = _
    rw [skipValue_of_readValue hread]
    rfl
  | some key =>
    dsimp only
    cases state.2.contains name with
    | true => rfl
    | false =>
      rw [if_neg Bool.false_ne_true, if_neg Bool.false_ne_true, toOption_bind, hcolon]
      change (r.readField depth key state.1 value >>= _).toOption = _
      rw [toOption_bind, hfield key state.1 name value m c' hvalue]
      cases field key m state.1 <;> rfl

/-- Reading a record is a run over the members that are written. -/
theorem toOption_read {r : Record σ κ} {depth : Nat} {field : κ → Member → σ → Option σ}
    (hfield : r.ReadsFields depth field) {c c' : Cursor} {written : List Member}
    (h : collectMembers depth c = .ok (written, c')) :
    (r.read (depth + 1) c).toOption =
      (written.foldlM (r.take field) (r.start, [])).map fun state => (state.1, c') := by
  unfold collectMembers at h
  dsimp only at h
  split at h
  · rename_i heq
    rcases toOption_readMembers (takes_readMember hfield) h with ⟨_, rfl, hrun⟩
    have hboth := hrun (r.start, []) (c.skipSpace.next.rest.length + 1) (Nat.lt_succ_self _)
    have hobject : (r.readObject depth c.skipSpace.next).toOption = (readMembers
        (r.readMember depth) (c.skipSpace.next.rest.length + 1) true (r.start, [])
          c.skipSpace.next).toOption.map fun result => (result.1.1, result.2) := by
      rw [readObject]
      cases readMembers (r.readMember depth) (c.skipSpace.next.rest.length + 1) true (r.start, [])
        c.skipSpace.next <;> rfl
    rw [read]
    simp only [heq]
    rw [hobject, hboth, Option.map_map]
    rfl
  · cases h

/-- How the structure that is read speaks about its members: at the start it says that none is
there, and reading the member of a key changes what it says about that key alone. -/
structure SaysAbout (r : Record σ κ) (field : κ → Member → σ → Option σ)
    (tells : κ → Option Member → σ → Prop) : Prop where
  start : ∀ key, tells key none r.start
  taken : ∀ {key m s s'}, field key m s = some s' → tells key (some m) s'
  kept : ∀ {key key' o m s s'}, field key m s = some s' → key' ≠ key → tells key' o s →
    tells key' o s'

/-- The first of some members that is called like a key. -/
def find? (r : Record σ κ) (key : κ) (members : List Member) : Option Member :=
  members.find? fun m => m.key == r.name key

theorem key?_eq_some {r : Record σ κ} (hinjective : Function.Injective r.name)
    (hkeys : ∀ key, key ∈ r.keys) {name : String} {key : κ} :
    r.key? name = some key ↔ r.name key = name := by
  constructor
  · intro h
    exact eq_of_beq (List.find?_some (p := fun key => r.name key == name) h)
  · intro h
    cases hfind : r.key? name with
    | none =>
      have hnone := List.find?_eq_none.mp hfind key (hkeys key)
      exact absurd (beq_iff_eq.mpr h) hnone
    | some other =>
      have hother : r.name other = name :=
        eq_of_beq (List.find?_some (p := fun key => r.name key == name) hfind)
      rw [hinjective (hother.trans h.symm)]

/-- The names that were seen are those of the known members before. -/
theorem seen_of_take {r : Record σ κ} (hinjective : Function.Injective r.name)
    (hkeys : ∀ key, key ∈ r.keys) {field : κ → Member → σ → Option σ} {before : List Member}
    {m : Member} {s s' : σ} {seen seen' : List String}
    (hseen : ∀ m ∈ before, ∀ key, r.name key = m.key → m.key ∈ seen)
    (htake : r.take field (s, seen) m = some (s', seen')) :
    ∀ m' ∈ before ++ [m], ∀ key, r.name key = m'.key → m'.key ∈ seen' := by
  intro m' hm' key hname
  unfold take at htake
  rw [List.mem_append, List.mem_singleton] at hm'
  split at htake
  · rename_i hunknown
    cases htake
    rcases hm' with hm' | rfl
    · exact hseen m' hm' key hname
    · rw [(key?_eq_some hinjective hkeys).mpr hname] at hunknown
      cases hunknown
  · split at htake
    · cases htake
    · rcases Option.map_eq_some_iff.mp htake with ⟨s₂, -, heq⟩
      cases heq
      rcases hm' with hm' | rfl
      · exact List.mem_cons_of_mem _ (hseen m' hm' key hname)
      · exact List.mem_cons_self

/-- One member changes what is said about its own key, which has not come before. -/
theorem says_of_take {r : Record σ κ} (hinjective : Function.Injective r.name)
    (hkeys : ∀ key, key ∈ r.keys) {field : κ → Member → σ → Option σ}
    {tells : κ → Option Member → σ → Prop} (htells : r.SaysAbout field tells)
    {before : List Member} {m : Member} {s s' : σ} {seen seen' : List String}
    (hs : ∀ key, tells key (r.find? key before) s)
    (hseen : ∀ m ∈ before, ∀ key, r.name key = m.key → m.key ∈ seen)
    (htake : r.take field (s, seen) m = some (s', seen')) (key : κ) :
    tells key (r.find? key (before ++ [m])) s' := by
  have hfind : r.find? key (before ++ [m]) =
      (r.find? key before).or (if m.key == r.name key then some m else none) := by
    rw [find?, List.find?_append, List.find?_singleton]
    rfl
  rw [hfind]
  unfold take at htake
  split at htake
  · rename_i hunknown
    cases htake
    have hne : ¬(m.key == r.name key) = true := by
      intro heq
      rw [(key?_eq_some hinjective hkeys).mpr (eq_of_beq heq).symm] at hunknown
      cases hunknown
    rw [if_neg hne, Option.or_none]
    exact hs key
  · rename_i known hknown
    have hname := (key?_eq_some hinjective hkeys).mp hknown
    split at htake
    · cases htake
    · rename_i hnew
      rcases Option.map_eq_some_iff.mp htake with ⟨s₂, hfield, heq⟩
      cases heq
      by_cases hkey : key = known
      · have hnone : r.find? key before = none := by
          refine List.find?_eq_none.mpr ?_
          intro m' hm' heq
          have heq' : m'.key = m.key := by
            rw [eq_of_beq heq, hkey, hname]
          have hmem := hseen m' hm' key (eq_of_beq heq).symm
          rw [heq'] at hmem
          exact hnew (List.contains_iff_mem.mpr hmem)
        rw [hnone, Option.none_or, if_pos (by rw [hkey, hname, beq_self_eq_true])]
        exact hkey ▸ htells.taken hfield
      · have hne : ¬(m.key == r.name key) = true := by
          intro heq
          exact hkey (hinjective ((eq_of_beq heq).symm.trans hname.symm))
        rw [if_neg hne, Option.or_none]
        exact htells.kept hfield hkey (hs key)

/-- What is said after each member is said in the end. -/
theorem says_of_foldlM {r : Record σ κ} (hinjective : Function.Injective r.name)
    (hkeys : ∀ key, key ∈ r.keys) {field : κ → Member → σ → Option σ}
    {tells : κ → Option Member → σ → Prop} (htells : r.SaysAbout field tells)
    (before : List Member) {written : List Member} {s s' : σ} {seen seen' : List String}
    (hs : ∀ key, tells key (r.find? key before) s)
    (hseen : ∀ m ∈ before, ∀ key, r.name key = m.key → m.key ∈ seen)
    (hrun : written.foldlM (r.take field) (s, seen) = some (s', seen')) (key : κ) :
    tells key (r.find? key (before ++ written)) s' := by
  induction written generalizing before s seen with
  | nil =>
    cases hrun
    rw [List.append_nil]
    exact hs key
  | cons m written ih =>
    rw [List.foldlM_cons, Option.bind_eq_bind, Option.bind_eq_some_iff] at hrun
    rcases hrun with ⟨⟨s₁, seen₁⟩, htake, hrun⟩
    rw [← List.singleton_append, ← List.append_assoc]
    exact ih (before ++ [m]) (says_of_take hinjective hkeys htells hs hseen htake)
      (seen_of_take hinjective hkeys hseen htake) hrun

/-- A record whose keys are not repeated is read if each known member fits. -/
theorem exists_foldlM_iff {r : Record σ κ} {field : κ → Member → σ → Option σ}
    {fits : κ → Member → Prop} (hfits : ∀ key m s, (∃ s', field key m s = some s') ↔ fits key m)
    {written : List Member} {s : σ} {seen : List String} (hnodup : (written.map Member.key).Nodup)
    (hseen : ∀ m ∈ written, m.key ∉ seen) :
    (∃ state, written.foldlM (r.take field) (s, seen) = some state) ↔
      ∀ m ∈ written, ∀ key, r.key? m.key = some key → fits key m := by
  induction written generalizing s seen with
  | nil =>
    simp
  | cons m written ih =>
    rw [List.map_cons, List.nodup_cons] at hnodup
    rw [List.forall_mem_cons] at hseen
    rw [List.foldlM_cons, List.forall_mem_cons, take]
    have hkey (seen : List String) (hseen : ∀ m ∈ written, m.key ∉ seen) :
        ∀ m' ∈ written, m'.key ∉ m.key :: seen := by
      intro m' hm'
      rw [List.mem_cons, not_or]
      refine ⟨?_, hseen m' hm'⟩
      intro heq
      exact hnodup.1 (heq ▸ List.mem_map_of_mem hm')
    cases hknown : r.key? m.key with
    | none =>
      have hrest := ih (s := s) hnodup.2 hseen.2
      simpa using hrest
    | some key =>
      have hnew : ¬seen.contains m.key = true := by
        intro hmem
        exact hseen.1 (List.contains_iff_mem.mp hmem)
      dsimp only
      rw [if_neg hnew]
      cases hfield : field key m s with
      | none =>
        have hnot : ¬fits key m := by
          intro hfit
          rcases (hfits key m s).mpr hfit with ⟨s', hs'⟩
          rw [hfield] at hs'
          cases hs'
        simp [hnot]
      | some s' =>
        have hfit : fits key m := (hfits key m s).mp ⟨s', hfield⟩
        have hrest := ih (s := s') hnodup.2 (hkey seen hseen.2)
        simpa [hfit] using hrest

end Record

end GraphFilter.Json
