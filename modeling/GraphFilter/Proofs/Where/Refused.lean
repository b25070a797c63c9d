import GraphFilter.Proofs.Where.Decoded

/-!
# Why a value is no where object

A value that is no where object is refused because of one of its nodes.  There may be several
that offend, and it is the first one that decides, in the order in which the value is written.

Main results:

- Theorem {lit}`Where.ofJson_eq_error_iff`: the refusal is that of the first offending node.
- Theorem {lit}`Where.ofJson_grammar`: what is decoded, to what, and why the rest is refused.
-/

namespace GraphFilter

namespace Where

/-! ## Offending nodes -/

/-- The nodes that keep a value from being a where object.  A node is found by its path: the
place of a member and, in a group, the place of an entry, from the outside in.  Offending are a
value that is no object, a group that is no array and an entry that is no object. -/
inductive Offends : Json.Value → List Nat → WhereFault → Prop where
  | value {v : Json.Value} (hnull : v ≠ .null) (hobject : ∀ members, v ≠ .object members) :
      Offends v [] (.notAnObject v)
  | group {members : List (String × Json.Value)} {i : Nat} {key : String} {value : Json.Value}
      (hmember : members[i]? = some (key, value)) {c : Combinator} (hkey : key = c.key)
      (harray : ∀ items, value ≠ .array items) : Offends (.object members) [i] (.notAnArray key)
  | entry {members : List (String × Json.Value)} {i j : Nat} {key : String}
      {items : List Json.Value} {item : Json.Value}
      (hmember : members[i]? = some (key, .array items)) {c : Combinator} (hkey : key = c.key)
      (hentry : items[j]? = some item) (hobject : ∀ inner, item ≠ .object inner) :
      Offends (.object members) [i, j] (.entryNotAnObject key item)
  | child {members : List (String × Json.Value)} {i j : Nat} {key : String}
      {items : List Json.Value} {inner : List (String × Json.Value)} {path : List Nat}
      {fault : WhereFault} (hmember : members[i]? = some (key, .array items)) {c : Combinator}
      (hkey : key = c.key) (hentry : items[j]? = some (.object inner))
      (h : Offends (.object inner) path fault) : Offends (.object members) (i :: j :: path) fault

/-- The first of some nodes, in the order in which they are written. -/
def First (nodes : List Nat → WhereFault → Prop) (path : List Nat) (fault : WhereFault) : Prop :=
  nodes path fault ∧ ∀ path' fault', nodes path' fault' → ¬List.Lex (· < ·) path' path

/-- An object with a group that does not fit is no where object. -/
theorem not_isWhere_of_member {members : List (String × Json.Value)} {i : Nat} {key : String}
    {value : Json.Value} {c : Combinator} (hmember : members[i]? = some (key, value))
    (hkey : key = c.key) (h : ∀ items, value = .array items → ∃ item ∈ items, ¬item.IsWhere) :
    ¬(Json.Value.object members).IsWhere := by
  intro hwhere
  rcases isWhere_object_iff.mp hwhere _ (List.mem_of_getElem? hmember) c hkey with
    ⟨items, hvalue, hall⟩
  rcases h items hvalue with ⟨item, hitem, hnot⟩
  exact hnot (hall item hitem)

namespace Offends

variable {v : Json.Value} {path : List Nat} {fault : WhereFault}

/-- Neither null nor a where object has an offending node. -/
theorem not_isWhere (h : Offends v path fault) : v ≠ .null ∧ ¬v.IsWhere := by
  induction h with
  | value hnull hobject => exact ⟨hnull, not_isWhere_of_ne_object hobject⟩
  | group hmember hkey harray =>
    refine ⟨nofun, not_isWhere_of_member hmember hkey ?_⟩
    intro items hvalue
    exact absurd hvalue (harray items)
  | entry hmember hkey hentry hobject =>
    refine ⟨nofun, not_isWhere_of_member hmember hkey ?_⟩
    intro items hvalue
    cases hvalue
    exact ⟨_, List.mem_of_getElem? hentry, not_isWhere_of_ne_object hobject⟩
  | child hmember hkey hentry _ ih =>
    refine ⟨nofun, not_isWhere_of_member hmember hkey ?_⟩
    intro items hvalue
    cases hvalue
    exact ⟨_, List.mem_of_getElem? hentry, ih.2⟩

/-- The fault of a node is determined by its path. -/
theorem fault_eq {fault' : WhereFault} (h : Offends v path fault) (h' : Offends v path fault') :
    fault = fault' := by
  induction h generalizing fault' with
  | value =>
    cases h' with
    | value => rfl
  | group hmember =>
    cases h' with
    | group hmember' =>
      cases hmember.symm.trans hmember'
      rfl
  | entry hmember _ hentry hobject =>
    cases h' with
    | entry hmember' _ hentry' =>
      cases hmember.symm.trans hmember'
      cases hentry.symm.trans hentry'
      rfl
    | child hmember' _ hentry' =>
      cases hmember.symm.trans hmember'
      cases hentry.symm.trans hentry'
      exact absurd rfl (hobject _)
  | child hmember _ hentry _ ih =>
    cases h' with
    | entry hmember' _ hentry' hobject =>
      cases hmember.symm.trans hmember'
      cases hentry.symm.trans hentry'
      exact absurd rfl (hobject _)
    | child hmember' _ hentry' h' =>
      cases hmember.symm.trans hmember'
      cases hentry.symm.trans hentry'
      exact ih h'

end Offends

/-! ## The first offending node -/

/-- The nodes of the items of a list.  Each is found by the place of its item.  Decoding goes from
item to item, through members as through entries, so this is how the first node is found. -/
inductive Within {α : Type} (nodes : α → List Nat → WhereFault → Prop) :
    List α → List Nat → WhereFault → Prop where
  | item {items : List α} {i : Nat} {a : α} {path : List Nat} {fault : WhereFault}
      (hitem : items[i]? = some a) (h : nodes a path fault) : Within nodes items (i :: path) fault

/-- The offending nodes of an entry of a group. -/
def InEntry (key : String) (item : Json.Value) (path : List Nat) (fault : WhereFault) : Prop :=
  (∀ inner, item ≠ .object inner) ∧ path = [] ∧ fault = .entryNotAnObject key item ∨
    ∃ inner, item = .object inner ∧ Offends item path fault

/-- The offending nodes of a member. -/
def InMember (member : String × Json.Value) (path : List Nat) (fault : WhereFault) : Prop :=
  ∃ c : Combinator, member.1 = c.key ∧
    ((∀ items, member.2 ≠ .array items) ∧ path = [] ∧ fault = .notAnArray member.1 ∨
      ∃ items, member.2 = .array items ∧ Within (InEntry member.1) items path fault)

/-- The offending nodes of an object are those of its members. -/
theorem offends_object_iff {members : List (String × Json.Value)} {path : List Nat}
    {fault : WhereFault} :
    Offends (.object members) path fault ↔ Within InMember members path fault := by
  constructor
  · intro h
    cases h with
    | value _ hobject => exact absurd rfl (hobject members)
    | group hmember hkey harray => exact .item hmember ⟨_, hkey, .inl ⟨harray, rfl, rfl⟩⟩
    | entry hmember hkey hentry hobject =>
      exact .item hmember ⟨_, hkey, .inr ⟨_, rfl, .item hentry (.inl ⟨hobject, rfl, rfl⟩)⟩⟩
    | child hmember hkey hentry h =>
      exact .item hmember ⟨_, hkey, .inr ⟨_, rfl, .item hentry (.inr ⟨_, rfl, h⟩)⟩⟩
  · rintro ⟨hmember, hin⟩
    rename_i i member path
    rcases member with ⟨key, value⟩
    rcases hin with ⟨c, hkey, ⟨harray, rfl, rfl⟩ | ⟨items, rfl, hentries⟩⟩
    · exact .group hmember hkey harray
    · rcases hentries with ⟨hentry, ⟨hobject, rfl, rfl⟩ | ⟨inner, rfl, h⟩⟩
      · exact .entry hmember hkey hentry hobject
      · exact .child hmember hkey hentry h

/-- The offending nodes of an entry that is an object are those of this object. -/
theorem inEntry_object_iff {key : String} {members : List (String × Json.Value)} {path : List Nat}
    {fault : WhereFault} :
    InEntry key (.object members) path fault ↔ Offends (.object members) path fault := by
  constructor
  · rintro (⟨hobject, -, -⟩ | ⟨_, -, h⟩)
    · exact absurd rfl (hobject members)
    · exact h
  · exact fun h => .inr ⟨members, rfl, h⟩

/-- The offending nodes of a group are those of its entries. -/
theorem inMember_array_iff {key : String} {c : Combinator} (hkey : key = c.key)
    {items : List Json.Value} {path : List Nat} {fault : WhereFault} :
    InMember (key, .array items) path fault ↔ Within (InEntry key) items path fault := by
  constructor
  · rintro ⟨_, -, ⟨harray, -, -⟩ | ⟨_, heq, h⟩⟩
    · exact absurd rfl (harray items)
    · cases heq
      exact h
  · exact fun h => ⟨c, hkey, .inr ⟨items, rfl, h⟩⟩

namespace First

variable {α : Type} {nodes : α → List Nat → WhereFault → Prop} {a : α} {rest : List α}
  {path : List Nat} {fault : WhereFault}

theorem congr {nodes nodes' : List Nat → WhereFault → Prop} (h : First nodes path fault)
    (hnodes : ∀ {path fault}, nodes path fault ↔ nodes' path fault) : First nodes' path fault :=
  ⟨hnodes.mp h.1, fun path' fault' h' => h.2 path' fault' (hnodes.mpr h')⟩

/-- If the first item has nodes, the first one of them comes before all others. -/
theorem within_head (h : First (nodes a) path fault) :
    First (Within nodes (a :: rest)) (0 :: path) fault := by
  refine ⟨.item rfl h.1, ?_⟩
  rintro _ _ ⟨hitem, hnode⟩ hlex
  cases hlex with
  | rel hlt => exact Nat.not_lt_zero _ hlt
  | cons hlex =>
    cases hitem
    exact h.2 _ _ hnode hlex

/-- If the first item has no nodes, the first one stands in the rest. -/
theorem within_tail (hnone : ∀ path fault, ¬nodes a path fault) {i : Nat}
    (h : First (Within nodes rest) (i :: path) fault) :
    First (Within nodes (a :: rest)) ((i + 1) :: path) fault := by
  rcases h with ⟨⟨hitem, hnode⟩, hleast⟩
  refine ⟨.item hitem hnode, ?_⟩
  rintro _ _ ⟨hitem', hnode'⟩ hlex
  rename_i j b path'
  cases j with
  | zero =>
    cases hitem'
    exact hnone _ _ hnode'
  | succ j =>
    refine hleast _ _ (.item hitem' hnode') ?_
    cases hlex with
    | rel hlt => exact .rel (Nat.lt_of_succ_lt_succ hlt)
    | cons hlex => exact .cons hlex

/-- In the rest of a list the first node stands in one of the items. -/
theorem exists_within_tail (hnone : ∀ path fault, ¬nodes a path fault)
    (h : ∃ path, First (Within nodes rest) path fault) :
    ∃ path, First (Within nodes (a :: rest)) path fault := by
  rcases h with ⟨_, ⟨hitem, hnode⟩, hleast⟩
  exact ⟨_, within_tail hnone ⟨.item hitem hnode, hleast⟩⟩

/-- Two first nodes are the same. -/
theorem fault_eq {v : Json.Value} {path' : List Nat} {fault' : WhereFault}
    (h : First (Offends v) path fault) (h' : First (Offends v) path' fault') : fault = fault' := by
  have hpath : path = path' := List.lex_trichotomous
    (fun _ _ => Std.Trichotomous.trichotomous _ _) (h.2 _ _ h'.1) (h'.2 _ _ h.1)
  rw [hpath] at h
  exact h.1.fault_eq h'.1

end First

/-- An entry that is a where object has no offending node. -/
theorem not_inEntry {key : String} {members : List (String × Json.Value)} {child : Where}
    (h : ofMembers members = .ok child) (path : List Nat) (fault : WhereFault) :
    ¬InEntry key (.object members) path fault := by
  rw [inEntry_object_iff]
  intro hoffends
  exact hoffends.not_isWhere.2 ((exists_ofMembers_iff members).mp ⟨child, h⟩)

/-- A member that is decoded has no offending node. -/
theorem not_inMember {key : String} {value : Json.Value} {condition : Condition Comparison}
    (h : ofMember key value = .ok condition) (path : List Nat) (fault : WhereFault) :
    ¬InMember (key, value) path fault := by
  rintro ⟨c, hkey, hin⟩
  rcases (exists_ofMember_iff key value).mp ⟨condition, h⟩ c hkey with ⟨items, rfl, hall⟩
  rcases hin with ⟨harray, -, -⟩ | ⟨_, heq, ⟨hitem, hentry⟩⟩
  · exact harray items rfl
  · cases heq
    have hwhere := hall _ (List.mem_of_getElem? hitem)
    rcases hentry with ⟨hobject, -, -⟩ | ⟨inner, rfl, hoffends⟩
    · exact not_isWhere_of_ne_object hobject hwhere
    · exact hoffends.not_isWhere.2 hwhere

/-- A member that is no array is refused itself. -/
theorem first_inMember_of_ne_array {key : String} {value : Json.Value} {fault : WhereFault}
    (hvalue : ∀ items, value ≠ .array items) (h : ofMember key value = .error fault) :
    ∃ path, First (InMember (key, value)) path fault := by
  cases hkey : Combinator.ofKey? key with
  | none =>
    rw [ofMember_of_ofKey?_eq_none hkey] at h
    cases h
  | some c =>
    cases (ofMember_of_ne_array hkey hvalue).symm.trans h
    refine ⟨[], ⟨c, Combinator.ofKey?_eq_some_iff.mp hkey, .inl ⟨hvalue, rfl, rfl⟩⟩, ?_⟩
    intro path' fault' _
    exact nofun

/-- An entry that is no object is refused itself. -/
theorem first_inEntry_of_ne_object {key : String} {item : Json.Value} {rest : List Json.Value}
    {fault : WhereFault} (hitem : ∀ members, item ≠ .object members)
    (h : ofEntries key (item :: rest) = .error fault) :
    ∃ path, First (Within (InEntry key) (item :: rest)) path fault := by
  cases (ofEntries_of_ne_object hitem rest).symm.trans h
  refine ⟨[0], First.within_head ⟨.inl ⟨hitem, rfl, rfl⟩, ?_⟩⟩
  intro path' fault' _
  exact nofun

mutual

/-- Members are refused because of their first offending node. -/
theorem exists_first_of_ofMembers : ∀ {members : List (String × Json.Value)} {fault : WhereFault},
    ofMembers members = .error fault → ∃ path, First (Within InMember members) path fault
  | [], _, h => nomatch h
  | (key, value) :: rest, fault, h => by
    rcases Json.of_bind_eq_error h with hmember | ⟨condition, hmember, h⟩
    · rcases exists_first_of_ofMember hmember with ⟨path, hfirst⟩
      exact ⟨_, hfirst.within_head⟩
    · rcases Json.of_bind_eq_error h with hrest | ⟨_, -, h⟩
      · exact First.exists_within_tail (not_inMember hmember) (exists_first_of_ofMembers hrest)
      · cases h

/-- A member is refused because of its first offending node. -/
theorem exists_first_of_ofMember {key : String} : ∀ {value : Json.Value} {fault : WhereFault},
    ofMember key value = .error fault → ∃ path, First (InMember (key, value)) path fault
  | .array items, fault, h => by
    cases hkey : Combinator.ofKey? key with
    | none =>
      rw [ofMember_of_ofKey?_eq_none hkey] at h
      cases h
    | some c =>
      rw [ofMember, hkey] at h
      rcases Json.of_bind_eq_error h with hentries | ⟨_, -, h⟩
      · rcases exists_first_of_ofEntries hentries with ⟨path, hfirst⟩
        have hkey' := Combinator.ofKey?_eq_some_iff.mp hkey
        exact ⟨path, hfirst.congr (inMember_array_iff hkey').symm⟩
      · cases h
  | .null, _, h => first_inMember_of_ne_array (by simp) h
  | .bool _, _, h => first_inMember_of_ne_array (by simp) h
  | .number _, _, h => first_inMember_of_ne_array (by simp) h
  | .string _, _, h => first_inMember_of_ne_array (by simp) h
  | .object _, _, h => first_inMember_of_ne_array (by simp) h

/-- The entries of a group are refused because of their first offending node. -/
theorem exists_first_of_ofEntries {key : String} : ∀ {items : List Json.Value}
    {fault : WhereFault}, ofEntries key items = .error fault →
      ∃ path, First (Within (InEntry key) items) path fault
  | [], _, h => nomatch h
  | .object members :: rest, fault, h => by
    rcases Json.of_bind_eq_error h with hchild | ⟨child, hchild, h⟩
    · rcases exists_first_of_ofMembers hchild with ⟨path, hfirst⟩
      have hobject := hfirst.congr offends_object_iff.symm
      exact ⟨_, First.within_head (hobject.congr inEntry_object_iff.symm)⟩
    · rcases Json.of_bind_eq_error h with hrest | ⟨_, -, h⟩
      · exact First.exists_within_tail (not_inEntry hchild) (exists_first_of_ofEntries hrest)
      · cases h
  | .null :: _, _, h => first_inEntry_of_ne_object (by simp) h
  | .bool _ :: _, _, h => first_inEntry_of_ne_object (by simp) h
  | .number _ :: _, _, h => first_inEntry_of_ne_object (by simp) h
  | .string _ :: _, _, h => first_inEntry_of_ne_object (by simp) h
  | .array _ :: _, _, h => first_inEntry_of_ne_object (by simp) h

end

/-- A value that is refused is refused because of its first offending node. -/
theorem exists_first_of_ofJson {v : Json.Value} {fault : WhereFault}
    (h : ofJson v = .error fault) : ∃ path, First (Offends v) path fault := by
  have hvalue (hnull : v ≠ .null) (hobject : ∀ members, v ≠ .object members)
      (hfault : fault = .notAnObject v) : ∃ path, First (Offends v) path fault := by
    rw [hfault]
    exact ⟨[], .value hnull hobject, fun _ _ _ => nofun⟩
  cases v with
  | null => cases h
  | object members =>
    rcases exists_first_of_ofMembers h with ⟨path, hfirst⟩
    exact ⟨path, hfirst.congr offends_object_iff.symm⟩
  | bool | number | string | array =>
    cases h
    exact hvalue nofun nofun rfl

/-- The refusal is that of the first offending node. -/
theorem ofJson_eq_error_iff {v : Json.Value} {fault : WhereFault} :
    ofJson v = .error fault ↔ ∃ path, First (Offends v) path fault := by
  refine ⟨exists_first_of_ofJson, ?_⟩
  rintro ⟨path, hfirst⟩
  cases hv : ofJson v with
  | ok w =>
    rcases (exists_ofJson_iff v).mp ⟨w, hv⟩ with hnull | hwhere
    · exact absurd hnull hfirst.1.not_isWhere.1
    · exact absurd hwhere hfirst.1.not_isWhere.2
  | error other =>
    rcases exists_first_of_ofJson hv with ⟨path', hfirst'⟩
    rw [hfirst'.fault_eq hfirst]

/-- Decoding takes null and the where objects, and nothing else.  There is one condition for each
member, in their order, and it is what the member stands for.  Any other value is refused because
of the first of its offending nodes. -/
theorem ofJson_grammar (v : Json.Value) :
    ((∃ w, ofJson v = .ok w) ↔ v = .null ∨ v.IsWhere) ∧
      (∀ w, ofJson v = .ok w ↔ v = .null ∧ w = .empty ∨
        ∃ members, v = .object members ∧ List.Forall₂ Denotes members w) ∧
      ∀ fault, ofJson v = .error fault ↔ ∃ path, Offends v path fault ∧
        ∀ path' fault', Offends v path' fault' → ¬List.Lex (· < ·) path' path :=
  ⟨exists_ofJson_iff v, fun _ => ofJson_eq_ok_iff, fun _ => ofJson_eq_error_iff⟩

/-- The group of a child offends before the entry behind that child. -/
example : ofJson (.object [("and", .array [.object [("or", .null)], .null])]) =
    .error (.notAnArray "or") :=
  rfl

end Where

end GraphFilter
