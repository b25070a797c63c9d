import GraphFilter.Where.Compile
import GraphFilter.Where.Decode
import GraphFilter.Proofs.Json.Keys
import GraphFilter.Proofs.Tree.Traversal
import Mathlib.Data.List.Nodup

/-!
# Building calls and their JSON

A where object that was built by a row of calls can be written as JSON: each comparison
is a member of its own, and all children that were given to a combinator, by however many
calls, stand in one array at the place of the first of these calls.  Decoding undoes this,
except that a comparison without an operand becomes one with `null`, which means the same.

Main results:

- Theorem {lit}`Where.Calls.build_group`: what a row of calls builds, without the detour of
  adding to groups that are there.
- Theorem {lit}`Where.compile_congr`: whether an operand is absent or `null` makes no
  difference to compiling.
- Theorem {lit}`Where.Calls.ofJson_encode`: decoding the JSON of a row of calls gives what
  they build.
-/

namespace GraphFilter

open GraphFilter.Tree (topLeaves children leaves)

/-! ## Absent operands -/

/-- A comparison whose operand, if it is absent, is said to be `null`. -/
def Comparison.explicit (c : Comparison) : Comparison :=
  { c with operand := some (c.operand.getD .null) }

/-- Checking makes no difference between an absent operand and `null`. -/
theorem Comparison.check_explicit (c : Comparison) : c.explicit.check = c.check := by
  have hoperand : c.explicit.operand? = c.operand? := by
    unfold operand? explicit
    cases c.operand <;> rfl
  unfold check
  rw [hoperand]
  rfl

/-- Nor does compiling. -/
theorem Comparison.bind?_congr (strict : Bool) {c d : Comparison} (h : c.explicit = d.explicit) :
    c.bind? strict = d.bind? strict := by
  have hfield : c.field = d.field := (mk.inj h).1
  have hoperator : c.operator = d.operator := (mk.inj h).2.1
  unfold bind?
  rw [← c.check_explicit, h, d.check_explicit, hfield, hoperator]

/-- Where objects that only differ in absent operands compile alike. -/
theorem Where.compile_congr (node : String) (strict : Bool) {w v : Where}
    (h : Tree.map Comparison.explicit w = Tree.map Comparison.explicit v) :
    w.compile node strict = v.compile node strict := by
  unfold compile
  rw [Tree.filterMapM_congr (fun c d => Comparison.bind?_congr strict) h]

namespace Where

/-! ## Calls -/

/-- A call that adds a comparison. -/
inductive Addition where
  | equal (field : String) (operand : Json.Value)
  | compare (field : String) (operator : Operator) (operand : Json.Value)
  | isNull (field : String)

namespace Addition

/-- Carry out a call that adds a comparison. -/
def apply (w : Where) : Addition → Where
  | equal field operand => w.equal field operand
  | compare field operator operand => w.compare field operator operand
  | isNull field => w.isNull field

/-- The comparison that is added. -/
def comparison : Addition → Comparison
  | equal field operand => ⟨field, .eq, some operand⟩
  | compare field operator operand => ⟨field, operator, some operand⟩
  | isNull field => ⟨field, .eq, none⟩

/-- The member that stands for a comparison. -/
def member (a : Addition) : String × Json.Value :=
  match a with
  | equal field operand => (field, .object [(Operator.eq.name, operand)])
  | compare field operator operand => (field, .object [(operator.name, operand)])
  | isNull field => (field, .null)

/-- The field of the comparison. -/
def field (a : Addition) : String :=
  a.comparison.field

/-- The operator of the comparison. -/
def operator (a : Addition) : Operator :=
  a.comparison.operator

/-- The operand that a call is given. -/
def operand? (a : Addition) : Option Json.Value :=
  a.comparison.operand

theorem fst_member (a : Addition) : a.member.1 = a.field := by
  cases a <;> rfl

theorem apply_eq (a : Addition) (w : Where) : a.apply w = w.addLeaf a.comparison := by
  cases a <;> rfl

end Addition

/-- A call of `and` or of `or`. -/
def combine (w : Where) : Combinator → List Where → Where
  | .and, children => w.and children
  | .or, children => w.or children

theorem combine_eq (w : Where) (c : Combinator) (members : List Where) :
    w.combine c members = w.addChildren c members := by
  cases c <;> rfl

/-- A row of building calls.  It has the form of a tree: a leaf is a call that adds a
comparison, and a group is a call of its combinator, whose children are built by rows of
calls of their own. -/
abbrev Calls := Tree Addition

namespace Calls

/-! ## What calls build -/

mutual

/-- Carry out a call. -/
def call : Where → Condition Addition → Where
  | w, .leaf a => a.apply w
  | w, .group c members => w.combine c (buildEach members)

/-- Carry out calls one after the other. -/
def buildOn : Where → List (Condition Addition) → Where
  | w, [] => w
  | w, c :: rest => buildOn (call w c) rest

/-- Build each child of a call. -/
def buildEach : List (List (Condition Addition)) → List Where
  | [] => []
  | calls :: rest => buildOn .empty calls :: buildEach rest

end

/-- What a row of calls builds. -/
def build (calls : Calls) : Where :=
  buildOn .empty calls

theorem buildEach_eq_map (rows : List Calls) : buildEach rows = rows.map build := by
  induction rows with
  | nil => rfl
  | cons calls rest ih => rw [buildEach, ih, List.map_cons, build]

/-- The calls without those of the given combinators. -/
def without (placed : List Combinator) (calls : Calls) : Calls :=
  calls.filter fun
    | .leaf _ => true
    | .group c _ => c ∉ placed

@[simp]
theorem without_nil (placed : List Combinator) : without placed [] = [] :=
  rfl

@[simp]
theorem without_leaf (placed : List Combinator) (a : Addition) (rest : Calls) :
    without placed (.leaf a :: rest) = .leaf a :: without placed rest :=
  rfl

@[simp]
theorem without_group (placed : List Combinator) (c : Combinator) (members : List Calls)
    (rest : Calls) :
    without placed (.group c members :: rest) =
      if c ∈ placed then without placed rest else .group c members :: without placed rest := by
  unfold without
  rw [List.filter_cons]
  by_cases hc : c ∈ placed <;> simp [hc]

@[simp]
theorem without_of_nothing (calls : Calls) : without [] calls = calls := by
  refine List.filter_eq_self.mpr ?_
  intro call _
  cases call <;> simp

theorem without_without (placed others : List Combinator) (calls : Calls) :
    without others (without placed calls) = without (others ++ placed) calls := by
  induction calls with
  | nil => rfl
  | cons call rest ih =>
    cases call with
    | leaf a => simp [ih]
    | group c members => by_cases hc : c ∈ placed <;> simp [hc, ih]

/-- Leaving out the calls of other combinators keeps the children of this one. -/
theorem children_without {placed : List Combinator} {c : Combinator} (hc : c ∉ placed)
    (calls : Calls) : children c (without placed calls) = children c calls := by
  induction calls with
  | nil => rfl
  | cons call rest ih =>
    cases call with
    | leaf a => simp [ih]
    | group d members =>
      by_cases hd : d ∈ placed
      · have hne : d ≠ c := fun heq => hc (heq ▸ hd)
        simp [hd, ih, hne]
      · simp [hd, ih]

/-- A comparison that is there stays in front. -/
theorem buildOn_leaf (c : Comparison) (w : Where) (calls : Calls) :
    buildOn (.leaf c :: w) calls = .leaf c :: buildOn w calls := by
  induction calls generalizing w with
  | nil => rfl
  | cons call rest ih =>
    cases call with
    | leaf a =>
      rw [buildOn, buildOn, Calls.call, Calls.call, a.apply_eq, a.apply_eq]
      exact ih _
    | group d members =>
      rw [buildOn, buildOn, Calls.call, Calls.call, combine_eq, combine_eq]
      exact ih _

/-- A group that is there stays in front and takes the children of all later calls. -/
theorem buildOn_group (c : Combinator) (present : List Where) (w : Where) (calls : Calls) :
    buildOn (.group c present :: w) calls =
      .group c (present ++ (children c calls).map build) :: buildOn w (without [c] calls) := by
  induction calls generalizing present w with
  | nil => simp [buildOn]
  | cons call rest ih =>
    cases call with
    | leaf a =>
      rw [buildOn, without_leaf, buildOn, Tree.children_leaf, Calls.call, Calls.call, a.apply_eq,
        a.apply_eq]
      exact ih _ _
    | group d members =>
      rw [buildOn, Calls.call, combine_eq, Tree.addChildren, without_group, Tree.children_group,
        buildEach_eq_map]
      by_cases hd : c = d
      · rw [hd, if_pos rfl, if_pos rfl, if_pos (List.mem_singleton_self d), List.map_append,
          ← List.append_assoc]
        exact hd ▸ ih _ _
      · have hmem : d ∉ [c] := fun h => hd (List.mem_singleton.mp h).symm
        rw [if_neg hd, if_neg fun heq => hd heq.symm, if_neg hmem, List.nil_append, buildOn,
          Calls.call, combine_eq, buildEach_eq_map]
        exact ih _ _

/-- A comparison stands where its call stands. -/
theorem build_leaf (a : Addition) (rest : Calls) :
    build (.leaf a :: rest) = .leaf a.comparison :: build rest := by
  rw [build, buildOn, Calls.call, a.apply_eq]
  exact buildOn_leaf a.comparison .empty rest

/-- A group stands where its first call stands, with the children of all of its calls. -/
theorem build_group (c : Combinator) (members : List Calls) (rest : Calls) :
    build (.group c members :: rest) =
      .group c ((members ++ children c rest).map build) :: build (without [c] rest) := by
  rw [build, buildOn, Calls.call, combine_eq, buildEach_eq_map, List.map_append]
  exact buildOn_group c (members.map build) .empty rest

/-! ## The JSON of calls -/

mutual

/-- The objects of the children that a call gives to a combinator. -/
def callEntries : Combinator → Condition Addition → List Json.Value
  | _, .leaf _ => []
  | c, .group d inner => if d = c then encodeEach inner else []

/-- The objects of the children that calls give to a combinator, in call order. -/
def entries : Combinator → List (Condition Addition) → List Json.Value
  | _, [] => []
  | c, call :: rest => callEntries c call ++ entries c rest

/-- The objects of the children of a call. -/
def encodeEach : List (List (Condition Addition)) → List Json.Value
  | [] => []
  | calls :: rest => .object (members [] calls) :: encodeEach rest

/-- The members that stand for calls, in call order.  The first call of a combinator brings
the children of all of its calls; `placed` holds the combinators that were called before. -/
def members : List Combinator → List (Condition Addition) → List (String × Json.Value)
  | _, [] => []
  | placed, .leaf a :: rest => a.member :: members placed rest
  | placed, .group c inner :: rest =>
    if c ∈ placed then members placed rest
    else (c.key, .array (encodeEach inner ++ entries c rest)) :: members (c :: placed) rest

end

/-- The object that stands for a row of calls. -/
def encode (calls : Calls) : Json.Value :=
  .object (members [] calls)

theorem encodeEach_eq_map (rows : List Calls) : encodeEach rows = rows.map encode := by
  induction rows with
  | nil => rfl
  | cons calls rest ih => rw [encodeEach, ih, List.map_cons, encode]

theorem entries_eq_map (c : Combinator) (calls : Calls) :
    entries c calls = (children c calls).map encode := by
  induction calls with
  | nil => rfl
  | cons call rest ih =>
    cases call with
    | leaf a => exact ih
    | group d members =>
      rw [entries, callEntries, encodeEach_eq_map, ih, Tree.children_group, List.map_append]
      split <;> rfl

theorem members_leaf (placed : List Combinator) (a : Addition) (rest : Calls) :
    members placed (.leaf a :: rest) = a.member :: members placed rest :=
  rfl

theorem members_group (placed : List Combinator) (c : Combinator) (inner : List Calls)
    (rest : Calls) :
    members placed (.group c inner :: rest) =
      if c ∈ placed then members placed rest
      else (c.key, .array ((inner ++ children c rest).map encode)) ::
        members (c :: placed) rest := by
  rw [members, encodeEach_eq_map, entries_eq_map, List.map_append]

/-! ## Calls that can be encoded -/

/-- Rows of calls that an object can stand for: in no row are two comparisons of one field,
no field is called like a combinator, and every operator is read from its name. -/
inductive Encodable : Calls → Prop where
  | intro {calls : Calls} (hdistinct : ((topLeaves calls).map Addition.field).Nodup)
      (hfields : ∀ a ∈ topLeaves calls, a.field ≠ "and" ∧ a.field ≠ "or")
      (hoperators : ∀ a ∈ topLeaves calls, ∃ name, a.operator = .ofName name)
      (hchildren : ∀ c, ∀ child ∈ children c calls, Encodable child) : Encodable calls

/-- A field that is not called like a combinator is not taken for one. -/
theorem ofKey?_field {field : String} (h : field ≠ "and" ∧ field ≠ "or") :
    Combinator.ofKey? field = none := by
  rw [Combinator.ofKey?, if_neg h.1, if_neg h.2]

theorem key_ne_field {field : String} (h : field ≠ "and" ∧ field ≠ "or") (c : Combinator) :
    c.key ≠ field := by
  cases c
  · exact h.1.symm
  · exact h.2.symm

/-- A member stands for a comparison, or for the children of a combinator that was not called
before. -/
theorem mem_members {placed : List Combinator} {calls : Calls} {m : String × Json.Value}
    (h : m ∈ members placed calls) :
    (∃ a ∈ topLeaves calls, m = a.member) ∨
      ∃ (c : Combinator) (rows : List Calls), c ∉ placed ∧
        (∀ row ∈ rows, row ∈ children c calls) ∧
        m = (c.key, .array (rows.map encode)) := by
  induction calls generalizing placed with
  | nil => cases h
  | cons call rest ih =>
    cases call with
    | leaf a =>
      rw [members_leaf, List.mem_cons] at h
      rcases h with rfl | h
      · exact Or.inl ⟨a, List.mem_cons_self .., rfl⟩
      · exact (ih h).imp_left fun ⟨b, hb, hm⟩ => ⟨b, List.mem_cons_of_mem _ hb, hm⟩
    | group c inner =>
      have hlater {d : Combinator} {rows : List Calls}
          (hrows : ∀ row ∈ rows, row ∈ children d rest) :
          ∀ row ∈ rows, row ∈ children d (.group c inner :: rest) := by
        intro row hrow
        rw [Tree.children_group, List.mem_append]
        exact Or.inr (hrows row hrow)
      rw [members_group] at h
      split at h
      · exact (ih h).imp_right fun ⟨d, rows, hd, hrows, hm⟩ => ⟨d, rows, hd, hlater hrows, hm⟩
      · rename_i hc
        rw [List.mem_cons] at h
        rcases h with rfl | h
        · refine Or.inr ⟨c, inner ++ children c rest, hc, ?_, rfl⟩
          intro row hrow
          rw [Tree.children_group, if_pos rfl]
          exact hrow
        · refine (ih h).imp_right fun ⟨d, rows, hd, hrows, hm⟩ => ⟨d, rows, ?_, hlater hrows, hm⟩
          exact fun hmem => hd (List.mem_cons_of_mem _ hmem)

/-- No key is repeated. -/
theorem nodup_keys_members {placed : List Combinator} {calls : Calls}
    (hdistinct : ((topLeaves calls).map Addition.field).Nodup)
    (hfields : ∀ a ∈ topLeaves calls, a.field ≠ "and" ∧ a.field ≠ "or") :
    ((members placed calls).map Prod.fst).Nodup := by
  induction calls generalizing placed with
  | nil => exact List.nodup_nil
  | cons call rest ih =>
    cases call with
    | leaf a =>
      rw [topLeaves, List.map_cons, List.nodup_cons] at hdistinct
      rw [topLeaves, List.forall_mem_cons] at hfields
      rw [members_leaf, List.map_cons, List.nodup_cons, a.fst_member]
      refine ⟨?_, ih hdistinct.2 hfields.2⟩
      intro hmem
      rcases List.mem_map.mp hmem with ⟨m, hm, heq⟩
      rcases mem_members hm with ⟨b, hb, rfl⟩ | ⟨c, rows, -, -, rfl⟩
      · rw [b.fst_member] at heq
        exact hdistinct.1 (List.mem_map.mpr ⟨b, hb, heq⟩)
      · exact key_ne_field hfields.1 c heq
    | group c inner =>
      rw [members_group]
      split
      · exact ih hdistinct hfields
      · rw [List.map_cons, List.nodup_cons]
        refine ⟨?_, ih hdistinct hfields⟩
        intro hmem
        rcases List.mem_map.mp hmem with ⟨m, hm, heq⟩
        rcases mem_members hm with ⟨a, ha, rfl⟩ | ⟨d, rows, hd, -, rfl⟩
        · rw [a.fst_member] at heq
          exact key_ne_field (hfields a ha) c heq.symm
        · have hcd : d = c := Combinator.key_injective heq
          exact hd (hcd ▸ List.mem_cons_self ..)

/-- The member of a comparison repeats no key unless its operand does. -/
theorem distinctKeys_member {a : Addition} (hoperand : ∀ v ∈ a.operand?, v.DistinctKeys) :
    a.member.2.DistinctKeys := by
  have hsingle {name : String} {v : Json.Value} (hv : v.DistinctKeys) :
      (Json.Value.object [(name, v)]).DistinctKeys :=
    .object (List.nodup_singleton _) (by simpa using hv)
  cases a with
  | equal field operand => exact hsingle (hoperand operand rfl)
  | compare field operator operand => exact hsingle (hoperand operand rfl)
  | isNull field => exact .null

/-- The JSON of calls repeats no key, at any depth, unless one of their operands does. -/
theorem Encodable.distinctKeys {calls : Calls} (h : Encodable calls)
    (hoperands : ∀ a ∈ leaves calls, ∀ v ∈ a.operand?, v.DistinctKeys) :
    (encode calls).DistinctKeys := by
  induction h with
  | @intro calls hdistinct hfields _ _ ih =>
    refine .object (nodup_keys_members hdistinct hfields) ?_
    intro m hm
    rcases mem_members hm with ⟨a, ha, rfl⟩ | ⟨c, rows, -, hrows, rfl⟩
    · exact distinctKeys_member (hoperands a (Tree.mem_leaves_iff.mpr (Or.inl ha)))
    · refine .array ?_
      intro item hitem
      rcases List.mem_map.mp hitem with ⟨row, hrow, rfl⟩
      refine ih c row (hrows row hrow) ?_
      intro a ha
      exact hoperands a (Tree.mem_leaves_iff.mpr (Or.inr ⟨c, row, hrows row hrow, ha⟩))

/-! ## Decoding -/

/-- What decoding the JSON of calls should give. -/
def Decodes (calls : Calls) : Prop :=
  ∃ w, ofMembers (members [] calls) = .ok w ∧
    Tree.map Comparison.explicit w = Tree.map Comparison.explicit (build calls)

/-- The member of a comparison gives it back. -/
theorem ofMember_member {a : Addition} (hfield : a.field ≠ "and" ∧ a.field ≠ "or")
    (hoperator : ∃ name, a.operator = .ofName name) :
    ∃ c, ofMember a.member.1 a.member.2 = .ok (.leaf c) ∧ c.explicit = a.comparison.explicit := by
  have hname : Operator.ofName a.operator.name = a.operator := by
    rcases hoperator with ⟨name, hname⟩
    rw [hname, Operator.name_ofName]
  refine ⟨.ofJson a.member.1 a.member.2, ?_, ?_⟩
  · rw [a.fst_member]
    exact ofMember_of_ofKey?_eq_none (ofKey?_field hfield) _
  · cases a with
    | equal field operand => exact congrArg (Comparison.mk field · (some operand)) hname
    | compare field operator operand => exact congrArg (Comparison.mk field · (some operand)) hname
    | isNull field => rfl

/-- An array of rows that decode is decoded row by row. -/
theorem ofEntries_map {rows : List Calls} (h : ∀ calls ∈ rows, Decodes calls) (key : String) :
    ∃ ws, ofEntries key (rows.map encode) = .ok ws ∧
      ws.map (Tree.map Comparison.explicit) =
        (rows.map build).map (Tree.map Comparison.explicit) := by
  induction rows with
  | nil => exact ⟨[], rfl, rfl⟩
  | cons calls rest ih =>
    rw [List.forall_mem_cons] at h
    rcases h.1 with ⟨w, hw, hexplicit⟩
    rcases ih h.2 with ⟨ws, hws, hrest⟩
    refine ⟨w :: ws, ?_, ?_⟩
    · rw [List.map_cons, encode, ofEntries, hw, hws]
      rfl
    · rw [List.map_cons, List.map_cons, List.map_cons, hexplicit, hrest]

/-- The members of calls, those of combinators that were called before left out, decode to
what the other calls build. -/
theorem ofMembers_members {calls : Calls}
    (hfields : ∀ a ∈ topLeaves calls, a.field ≠ "and" ∧ a.field ≠ "or")
    (hoperators : ∀ a ∈ topLeaves calls, ∃ name, a.operator = .ofName name)
    (hchildren : ∀ c, ∀ child ∈ children c calls, Decodes child) (placed : List Combinator) :
    ∃ w, ofMembers (members placed calls) = .ok w ∧
      Tree.map Comparison.explicit w =
        Tree.map Comparison.explicit (build (without placed calls)) := by
  induction calls generalizing placed with
  | nil => exact ⟨[], rfl, rfl⟩
  | cons call rest ih =>
    cases call with
    | leaf a =>
      rw [topLeaves, List.forall_mem_cons] at hfields hoperators
      rcases ofMember_member hfields.1 hoperators.1 with ⟨c, hc, hexplicit⟩
      rcases ih hfields.2 hoperators.2 hchildren placed with ⟨w, hw, hrest⟩
      refine ⟨.leaf c :: w, ?_, ?_⟩
      · rw [members_leaf, ofMembers, hc, hw]
        rfl
      · rw [without_leaf, build_leaf, Tree.map_leaf, Tree.map_leaf, hexplicit, hrest]
    | group c inner =>
      have hlater : ∀ d, ∀ child ∈ children d rest, Decodes child := by
        intro d child hchild
        refine hchildren d child ?_
        rw [Tree.children_group, List.mem_append]
        exact Or.inr hchild
      rw [members_group, without_group]
      by_cases hc : c ∈ placed
      · rw [if_pos hc, if_pos hc]
        exact ih hfields hoperators hlater placed
      · rw [if_neg hc, if_neg hc]
        have hrows : ∀ child ∈ inner ++ children c rest, Decodes child := by
          intro child hchild
          refine hchildren c child ?_
          rw [Tree.children_group, if_pos rfl]
          exact hchild
        rcases ofEntries_map hrows c.key with ⟨ws, hws, hexplicit⟩
        rcases ih hfields hoperators hlater (c :: placed) with ⟨w, hw, hrest⟩
        refine ⟨.group c ws :: w, ?_, ?_⟩
        · rw [ofMembers, ofMember, Combinator.ofKey?_key, hws, hw]
          rfl
        · rw [build_group, children_without hc, without_without, Tree.map_group, Tree.map_group,
            hexplicit, hrest]
          rfl

/-- Rows of calls that can be encoded decode. -/
theorem Encodable.decodes {calls : Calls} (h : Encodable calls) : Decodes calls := by
  induction h with
  | @intro calls _ hfields hoperators _ ih =>
    have hmembers := ofMembers_members hfields hoperators ih []
    rw [without_of_nothing] at hmembers
    exact hmembers

/-- The JSON of a row of calls is an object without repeated keys.  It is decoded to the where
object that the calls build, up to operands that are absent in one and `null` in the other,
and the two compile to the same result with the same warnings. -/
theorem ofJson_encode {calls : Calls} (h : Encodable calls) :
    ((∀ a ∈ leaves calls, ∀ v ∈ a.operand?, v.DistinctKeys) → (encode calls).DistinctKeys) ∧
      ∃ w, ofJson (encode calls) = .ok w ∧
        Tree.map Comparison.explicit w = Tree.map Comparison.explicit (build calls) ∧
        ∀ node strict names, (w.compile node strict).runFrom names =
          ((build calls).compile node strict).runFrom names := by
  rcases h.decodes with ⟨w, hw, hexplicit⟩
  refine ⟨h.distinctKeys, w, hw, hexplicit, ?_⟩
  intro node strict names
  rw [compile_congr node strict hexplicit]

/-- Two calls of `and` with a test for null between them, and an operator that is not known
with an operand that is an object itself. -/
theorem ofJson_encode_and :
    ∃ w, ofJson (.object [
        ("and", .array [.object [("city", .object [("eq", .string "Rome")])],
          .object [("size", .object [("near", .object [("or", .null)])])]]),
        ("age", .null)]) = .ok w ∧
      Tree.map Comparison.explicit w = Tree.map Comparison.explicit
        (((empty.and [empty.equal "city" (.string "Rome")]).isNull "age").and
          [empty.compare "size" (.unsupported "near") (.object [("or", .null)])]) := by
  have hcity : Encodable [.leaf (.equal "city" (.string "Rome"))] := by
    refine .intro (List.nodup_singleton _) ?_ ?_ (by simp)
    · simp [topLeaves, Addition.field, Addition.comparison]
    · simpa [topLeaves] using ⟨"eq", rfl⟩
  have hsize : Encodable
      [.leaf (.compare "size" (.unsupported "near") (.object [("or", .null)]))] := by
    refine .intro (List.nodup_singleton _) ?_ ?_ (by simp)
    · simp [topLeaves, Addition.field, Addition.comparison]
    · simpa [topLeaves] using ⟨"near", rfl⟩
  have hcalls : Encodable [.group .and [[.leaf (.equal "city" (.string "Rome"))]],
      .leaf (.isNull "age"), .group .and
        [[.leaf (.compare "size" (.unsupported "near") (.object [("or", .null)]))]]] := by
    refine .intro (List.nodup_singleton _) ?_ ?_ ?_
    · simp [topLeaves, Addition.field, Addition.comparison]
    · simpa [topLeaves] using ⟨"eq", rfl⟩
    · intro c child hchild
      cases c with
      | and =>
        simp only [Tree.children_group, Tree.children_leaf, Tree.children_nil] at hchild
        simp only [if_true, List.append_nil, List.cons_append, List.nil_append, List.mem_cons,
          List.not_mem_nil, or_false] at hchild
        rcases hchild with rfl | rfl
        · exact hcity
        · exact hsize
      | or => simp at hchild
  obtain ⟨-, w, hw, hexplicit, -⟩ := ofJson_encode hcalls
  exact ⟨w, hw, hexplicit⟩

end Calls

end Where

end GraphFilter
