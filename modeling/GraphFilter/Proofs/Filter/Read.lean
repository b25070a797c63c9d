import GraphFilter.Filter.Decode
import GraphFilter.Proofs.Json.Naturals
import GraphFilter.Proofs.Where.Grammar
import Mathlib.Data.List.Nodup

/-!
# Filters and their texts

Which objects are filters, and what the filter holds that is read from one.  Five members are
looked at, each on its own; one that is null counts as left out, and all others are passed
over.

Main results:

- Theorem {lit}`Filter.parse_eq_ok_iff`: the filter of a text, by the members that are written.
- Theorem {lit}`Filter.parse_object`: the objects that are filters.
-/

namespace GraphFilter

open Json (Member)

/-! ## Selected fields -/

/-- The numbers that are zero. -/
def Json.Number.IsZero : Json.Number → Prop
  | .int n _ => n = 0
  | .float x => x.significand = 0

/-- The values that select a field. -/
inductive Json.Value.IsTruthy : Json.Value → Prop where
  | true : IsTruthy (.bool true)
  | number {n : Json.Number} (h : ¬n.IsZero) : IsTruthy (.number n)
  | string {s : String} (h : s ≠ "") : IsTruthy (.string s)
  | array (items : List Json.Value) : IsTruthy (.array items)
  | object (members : List (String × Json.Value)) : IsTruthy (.object members)

theorem isTruthy_iff (v : Json.Value) : isTruthy v = true ↔ v.IsTruthy := by
  constructor
  · intro h
    cases v with
    | null => cases h
    | bool b =>
      cases b with
      | false => cases h
      | true => exact .true
    | number n =>
      refine .number ?_
      cases n with
      | int n hkeeps => simpa [isTruthy, Json.Number.IsZero] using h
      | float x => simpa [isTruthy, Json.Number.IsZero, Decimal.Binary64.isZero] using h
    | string s => exact .string (by simpa [isTruthy] using h)
    | array items => exact .array items
    | object members => exact .object members
  · intro h
    cases h with
    | true => rfl
    | @number n h =>
      cases n with
      | int n hkeeps => simpa [isTruthy, Json.Number.IsZero] using h
      | float x => simpa [isTruthy, Json.Number.IsZero, Decimal.Binary64.isZero] using h
    | string h => simpa [isTruthy] using h
    | array items => rfl
    | object members => rfl

/-- The fields that an object selects are its keys with truthy values, in their order. -/
inductive SelectsFields : List (String × Json.Value) → List String → Prop where
  | nil : SelectsFields [] []
  | keep {key : String} {value : Json.Value} {members : List (String × Json.Value)}
      {names : List String} (h : value.IsTruthy) (hrest : SelectsFields members names) :
      SelectsFields ((key, value) :: members) (key :: names)
  | drop {key : String} {value : Json.Value} {members : List (String × Json.Value)}
      {names : List String} (h : ¬value.IsTruthy) (hrest : SelectsFields members names) :
      SelectsFields ((key, value) :: members) names

theorem selectsFields_iff {members : List (String × Json.Value)} {names : List String} :
    SelectsFields members names ↔
      names = (members.filter fun m => isTruthy m.2).map Prod.fst := by
  constructor
  · intro h
    induction h with
    | nil => rfl
    | keep h hrest ih => rw [List.filter_cons, if_pos ((isTruthy_iff _).mpr h), List.map_cons, ih]
    | drop h hrest ih =>
      rw [List.filter_cons, if_neg (fun htrue => h ((isTruthy_iff _).mp htrue)), ih]
  · rintro rfl
    induction members with
    | nil => exact .nil
    | cons member rest ih =>
      rcases member with ⟨key, value⟩
      by_cases h : isTruthy value = true
      · rw [List.filter_cons, if_pos h]
        exact .keep ((isTruthy_iff _).mp h) ih
      · rw [List.filter_cons, if_neg h]
        exact .drop (fun htrue => h ((isTruthy_iff _).mpr htrue)) ih

/-! ## Loosely typed members -/

/-- Only strings make an array of strings. -/
theorem stringsOfJson_eq_ok {what : String} {items : List Json.Value} {names : List String} :
    stringsOfJson what items = .ok names ↔ items = names.map .string := by
  constructor
  · intro h
    induction items generalizing names with
    | nil =>
      cases h
      rfl
    | cons item rest ih =>
      cases item with
      | string s =>
        rcases Json.exists_of_bind_eq_ok h with ⟨strings, hstrings, h⟩
        cases h
        rw [ih hstrings, List.map_cons]
      | null | bool | number | array | object => cases h
  · rintro rfl
    induction names with
    | nil => rfl
    | cons name names ih =>
      rw [List.map_cons, stringsOfJson, ih]
      rfl

/-! ## What a member gives

The member is the one under a key, if there is one that is not null. -/

section
variable {m : Member}

/-- The condition that a member gives. -/
def GivesCondition : Option Member → Option Where → Prop
  | none, w? => w? = none
  | some m, w? => ∃ w, w? = some w ∧ Where.ofJson m.value = .ok w

/-- The order entries that a member gives: one string, or an array of them. -/
def GivesOrder : Option Member → List String → Prop
  | none, entries => entries = []
  | some m, entries => (∃ entry, m.value = .string entry ∧ entries = [entry]) ∨
      m.value = .array (entries.map .string)

/-- The number that a member gives: the one that its digits stand for. -/
def GivesNatural : Option Member → Option UInt64 → Prop
  | none, n? => n? = none
  | some m, n? => ∃ n, n? = some n ∧ Decimal.readNatural? m.source = some n.toNat

/-- The field names that a member gives: an array of them, or the keys that an object selects. -/
def GivesFields : Option Member → List String → Prop
  | none, names => names = []
  | some m, names => (∃ members, m.value = .object members ∧ SelectsFields members names) ∨
      m.value = .array (names.map .string)

theorem optionalWhereOfJson_eq_ok {w? : Option Where} :
    optionalWhereOfJson m.value = .ok w? ↔ GivesCondition (Member.nonNull? (some m)) w? := by
  by_cases hnull : m.value = .null
  · rw [Member.nonNull?_of_null hnull, hnull, GivesCondition]
    exact ⟨fun h => (Except.ok.inj h).symm, fun h => congrArg _ h.symm⟩
  · have hisNull : ¬m.value.isNull = true := by
      rw [Json.Value.isNull_of_ne hnull]
      exact Bool.false_ne_true
    rw [Member.nonNull?_of_ne hnull, GivesCondition, optionalWhereOfJson, if_neg hisNull,
      whereOfJson]
    cases Where.ofJson m.value with
    | ok w =>
      constructor
      · intro h
        cases h
        exact ⟨w, rfl, rfl⟩
      · rintro ⟨_, rfl, h⟩
        cases h
        rfl
    | error fault =>
      constructor
      · intro h
        cases h
      · rintro ⟨_, -, h⟩
        cases h

theorem orderOfJson_eq_ok {entries : List String} :
    orderOfJson m.value = .ok entries ↔ GivesOrder (Member.nonNull? (some m)) entries := by
  by_cases hnull : m.value = .null
  · rw [Member.nonNull?_of_null hnull, hnull, GivesOrder, orderOfJson]
    exact ⟨fun h => (Except.ok.inj h).symm, fun h => congrArg _ h.symm⟩
  · rw [Member.nonNull?_of_ne hnull, GivesOrder]
    cases hv : m.value with
    | null => exact absurd hv hnull
    | string entry =>
      rw [orderOfJson]
      constructor
      · intro h
        exact .inl ⟨entry, rfl, (Except.ok.inj h).symm⟩
      · rintro (⟨_, h, rfl⟩ | h)
        · cases h
          rfl
        · cases h
    | array items => simp [orderOfJson, stringsOfJson_eq_ok]
    | bool | number | object => simp [orderOfJson]

theorem fieldsOfJson_eq_ok {names : List String} :
    fieldsOfJson m.value = .ok names ↔ GivesFields (Member.nonNull? (some m)) names := by
  by_cases hnull : m.value = .null
  · rw [Member.nonNull?_of_null hnull, hnull, GivesFields, fieldsOfJson]
    exact ⟨fun h => (Except.ok.inj h).symm, fun h => congrArg _ h.symm⟩
  · rw [Member.nonNull?_of_ne hnull, GivesFields]
    cases hv : m.value with
    | null => exact absurd hv hnull
    | object members =>
      rw [fieldsOfJson]
      constructor
      · intro h
        exact .inl ⟨members, rfl, selectsFields_iff.mpr (Except.ok.inj h).symm⟩
      · rintro (⟨_, h, hselects⟩ | h)
        · cases h
          rw [selectsFields_iff.mp hselects]
        · cases h
    | array items => simp [fieldsOfJson, stringsOfJson_eq_ok]
    | bool | number | string => simp [fieldsOfJson]

theorem natural?_eq_some {n? : Option UInt64} :
    m.natural? = some n? ↔ GivesNatural (Member.nonNull? (some m)) n? := by
  by_cases hnull : m.value = .null
  · rw [Member.nonNull?_of_null hnull, GivesNatural, Member.natural?, hnull]
    exact ⟨fun h => (Option.some.inj h).symm, fun h => congrArg _ h.symm⟩
  · have hisNull : ¬m.value.isNull = true := by
      rw [Json.Value.isNull_of_ne hnull]
      exact Bool.false_ne_true
    rw [Member.nonNull?_of_ne hnull, GivesNatural, Member.natural?, if_neg hisNull,
      Option.bind_eq_some_iff]
    constructor
    · rintro ⟨n, hn, h⟩
      split at h
      · rename_i hle
        refine ⟨UInt64.ofNat n, (Option.some.inj h).symm, ?_⟩
        rw [hn, UInt64.toNat_ofNat_of_lt' (Nat.lt_succ_of_le hle)]
      · cases h
    · rintro ⟨n, rfl, hn⟩
      have hle : n.toNat ≤ Json.greatestSignificand := Nat.le_of_lt_succ n.toNat_lt
      refine ⟨n.toNat, hn, ?_⟩
      rw [if_pos hle, UInt64.ofNat_toNat]

/-- A where object and null can be taken as a condition. -/
theorem exists_givesCondition_iff : (∃ w?, GivesCondition (Member.nonNull? (some m)) w?) ↔
    m.value = .null ∨ m.value.IsWhere := by
  by_cases hnull : m.value = .null
  · rw [Member.nonNull?_of_null hnull]
    exact iff_of_true ⟨none, rfl⟩ (.inl hnull)
  · rw [Member.nonNull?_of_ne hnull, ← Where.exists_ofJson_iff]
    exact ⟨fun ⟨_, w, _, hw⟩ => ⟨w, hw⟩, fun ⟨w, hw⟩ => ⟨some w, w, rfl, hw⟩⟩

/-- A string, an array of strings and null can be taken as order entries. -/
theorem exists_givesOrder_iff : (∃ entries, GivesOrder (Member.nonNull? (some m)) entries) ↔
    m.value = .null ∨ (∃ entry, m.value = .string entry) ∨
      ∃ entries : List String, m.value = .array (entries.map .string) := by
  by_cases hnull : m.value = .null
  · rw [Member.nonNull?_of_null hnull]
    exact iff_of_true ⟨[], rfl⟩ (.inl hnull)
  · rw [Member.nonNull?_of_ne hnull, or_iff_right hnull]
    constructor
    · rintro ⟨entries, ⟨entry, hvalue, -⟩ | hvalue⟩
      · exact .inl ⟨entry, hvalue⟩
      · exact .inr ⟨entries, hvalue⟩
    · rintro (⟨entry, hvalue⟩ | ⟨entries, hvalue⟩)
      · exact ⟨[entry], .inl ⟨entry, hvalue, rfl⟩⟩
      · exact ⟨entries, .inr hvalue⟩

/-- Digits that stand for a number of 64 bits and null can be taken as a number. -/
theorem exists_givesNatural_iff : (∃ n?, GivesNatural (Member.nonNull? (some m)) n?) ↔
    m.value = .null ∨ ∃ n : UInt64, Decimal.readNatural? m.source = some n.toNat := by
  by_cases hnull : m.value = .null
  · rw [Member.nonNull?_of_null hnull]
    exact iff_of_true ⟨none, rfl⟩ (.inl hnull)
  · rw [Member.nonNull?_of_ne hnull, or_iff_right hnull]
    exact ⟨fun ⟨_, n, _, hn⟩ => ⟨n, hn⟩, fun ⟨n, hn⟩ => ⟨some n, n, rfl, hn⟩⟩

/-- An object, an array of strings and null can be taken as field names. -/
theorem exists_givesFields_iff : (∃ names, GivesFields (Member.nonNull? (some m)) names) ↔
    m.value = .null ∨ (∃ members, m.value = .object members) ∨
      ∃ names : List String, m.value = .array (names.map .string) := by
  by_cases hnull : m.value = .null
  · rw [Member.nonNull?_of_null hnull]
    exact iff_of_true ⟨[], rfl⟩ (.inl hnull)
  · rw [Member.nonNull?_of_ne hnull, or_iff_right hnull]
    constructor
    · rintro ⟨names, ⟨members, hvalue, -⟩ | hvalue⟩
      · exact .inl ⟨members, hvalue⟩
      · exact .inr ⟨names, hvalue⟩
    · rintro (⟨members, hvalue⟩ | ⟨names, hvalue⟩)
      · exact ⟨_, .inl ⟨members, hvalue, selectsFields_iff.mpr rfl⟩⟩
      · exact ⟨names, .inr hvalue⟩

end

section
variable {member? : Option Member}

theorem strings_injective {xs ys : List String}
    (h : Json.Value.array (xs.map .string) = .array (ys.map .string)) : xs = ys :=
  (List.map_inj_right fun _ _ => Json.Value.string.inj).mp (Json.Value.array.inj h)

theorem GivesCondition.eq {w? w?' : Option Where} (h : GivesCondition member? w?)
    (h' : GivesCondition member? w?') : w? = w?' := by
  cases member? with
  | none => exact Eq.trans h h'.symm
  | some m =>
    rcases h with ⟨w, rfl, hw⟩
    rcases h' with ⟨w', rfl, hw'⟩
    rw [Except.ok.inj (hw.symm.trans hw')]

theorem GivesOrder.eq {entries entries' : List String} (h : GivesOrder member? entries)
    (h' : GivesOrder member? entries') : entries = entries' := by
  cases member? with
  | none => exact Eq.trans h h'.symm
  | some m =>
    rcases h with ⟨entry, hvalue, rfl⟩ | hvalue
    · rcases h' with ⟨entry', hvalue', rfl⟩ | hvalue'
      · rw [Json.Value.string.inj (hvalue.symm.trans hvalue')]
      · cases hvalue.symm.trans hvalue'
    · rcases h' with ⟨entry', hvalue', rfl⟩ | hvalue'
      · cases hvalue.symm.trans hvalue'
      · exact strings_injective (hvalue.symm.trans hvalue')

theorem GivesNatural.eq {n? n?' : Option UInt64} (h : GivesNatural member? n?)
    (h' : GivesNatural member? n?') : n? = n?' := by
  cases member? with
  | none => exact Eq.trans h h'.symm
  | some m =>
    rcases h with ⟨n, rfl, hn⟩
    rcases h' with ⟨n', rfl, hn'⟩
    rw [UInt64.toNat_inj.mp (Option.some.inj (hn.symm.trans hn'))]

theorem GivesFields.eq {names names' : List String} (h : GivesFields member? names)
    (h' : GivesFields member? names') : names = names' := by
  cases member? with
  | none => exact Eq.trans h h'.symm
  | some m =>
    rcases h with ⟨members, hvalue, hselects⟩ | hvalue
    · rcases h' with ⟨members', hvalue', hselects'⟩ | hvalue'
      · cases hvalue.symm.trans hvalue'
        rw [selectsFields_iff.mp hselects, selectsFields_iff.mp hselects']
      · cases hvalue.symm.trans hvalue'
    · rcases h' with ⟨members', hvalue', -⟩ | hvalue'
      · cases hvalue.symm.trans hvalue'
      · exact strings_injective (hvalue.symm.trans hvalue')

end

/-! ## Members of a filter -/

namespace FilterKey

/-- Whether a member may stand under its key. -/
def Fits : FilterKey → Member → Prop
  | condition, m => m.value = .null ∨ m.value.IsWhere
  | order, m => m.value = .null ∨ (∃ entry, m.value = .string entry) ∨
      ∃ entries : List String, m.value = .array (entries.map .string)
  | skip, m | limit, m => m.value = .null ∨
      ∃ n : UInt64, Decimal.readNatural? m.source = some n.toNat
  | fields, m => m.value = .null ∨ (∃ members, m.value = .object members) ∨
      ∃ names : List String, m.value = .array (names.map .string)

/-- What a filter holds because of the member under a key. -/
def Says (f : Filter) (member? : Option Member) : FilterKey → Prop
  | condition => GivesCondition member? f.condition
  | order => GivesOrder member? f.order
  | skip => GivesNatural member? f.skip
  | limit => GivesNatural member? f.limit
  | fields => GivesFields member? f.fields

/-- A filter is determined by its members. -/
theorem says_unique {f g : Filter} {member? : FilterKey → Option Member}
    (hf : ∀ key : FilterKey, key.Says f (member? key))
    (hg : ∀ key : FilterKey, key.Says g (member? key)) : f = g := by
  have hcondition : f.condition = g.condition := (hf condition).eq (hg condition)
  have horder : f.order = g.order := (hf order).eq (hg order)
  have hskip : f.skip = g.skip := (hf skip).eq (hg skip)
  have hlimit : f.limit = g.limit := (hf limit).eq (hg limit)
  have hfields : f.fields = g.fields := (hf fields).eq (hg fields)
  rcases f with ⟨condition, order, skip, limit, fields⟩
  rcases g with ⟨condition', order', skip', limit', fields'⟩
  dsimp only at hcondition horder hskip hlimit hfields
  rw [hcondition, horder, hskip, hlimit, hfields]

/-- Take a member into a filter. -/
def take (key : FilterKey) (m : Member) (f : Filter) : Option Filter :=
  match key with
  | condition => (optionalWhereOfJson m.value).toOption.map fun w => { f with condition := w }
  | order => (orderOfJson m.value).toOption.map fun entries => { f with order := entries }
  | skip => m.natural?.map fun n => { f with skip := n }
  | limit => m.natural?.map fun n => { f with limit := n }
  | fields => (fieldsOfJson m.value).toOption.map fun names => { f with fields := names }

/-- A member that is converted. -/
theorem toOption_readConverted {α : Type} {depth : Nat}
    {convert : Json.Value → Except Json.Fault α} {key : String} {c c' : Json.Cursor} {m : Member}
    (h : Json.readMemberValue depth key c = .ok (m, c')) :
    (Json.readConverted depth convert c).toOption = (convert m.value).toOption.map (·, c') := by
  rcases Json.readValue_of_readMemberValue h with ⟨hvalue, -, -⟩
  rw [Json.readConverted, hvalue]
  dsimp only [bind, Except.bind]
  cases convert m.value <;> rfl

/-- The fields of a filter are read from its members. -/
theorem readsFields (depth : Nat) : Filter.record.ReadsFields depth take := by
  intro key f name c m c' h
  change (read depth key f c).toOption = _
  cases key with
  | condition =>
    rw [read, take, Json.toOption_bind, toOption_readConverted h]
    cases (optionalWhereOfJson m.value).toOption <;> rfl
  | order =>
    rw [read, take, Json.toOption_bind, toOption_readConverted h]
    cases (orderOfJson m.value).toOption <;> rfl
  | skip =>
    rw [read, take, Json.toOption_bind, Json.toOption_readNatural h]
    cases m.natural? <;> rfl
  | limit =>
    rw [read, take, Json.toOption_bind, Json.toOption_readNatural h]
    cases m.natural? <;> rfl
  | fields =>
    rw [read, take, Json.toOption_bind, toOption_readConverted h]
    cases (fieldsOfJson m.value).toOption <;> rfl

/-- A conversion that is taken in. -/
theorem toOption_map_eq_some {α : Type} {x : Except Json.Fault α} {g : α → Filter} {f : Filter} :
    x.toOption.map g = some f ↔ ∃ a, x = .ok a ∧ g a = f := by
  cases x with
  | ok a => simp [Except.toOption]
  | error fault => simp [Except.toOption]

/-- The members that can be taken. -/
theorem exists_take_iff (key : FilterKey) (m : Member) (f : Filter) :
    (∃ f', take key m f = some f') ↔ key.Fits m := by
  have hexists {α : Type} {p : α → Prop} {g : α → Filter} :
      (∃ f', ∃ a, p a ∧ g a = f') ↔ ∃ a, p a :=
    ⟨fun ⟨_, a, ha, _⟩ => ⟨a, ha⟩, fun ⟨a, ha⟩ => ⟨_, a, ha, rfl⟩⟩
  cases key with
  | condition =>
    simp only [take, toOption_map_eq_some, optionalWhereOfJson_eq_ok, hexists]
    exact exists_givesCondition_iff
  | order =>
    simp only [take, toOption_map_eq_some, orderOfJson_eq_ok, hexists]
    exact exists_givesOrder_iff
  | skip | limit =>
    simp only [take, Option.map_eq_some_iff, natural?_eq_some, hexists]
    exact exists_givesNatural_iff
  | fields =>
    simp only [take, toOption_map_eq_some, fieldsOfJson_eq_ok, hexists]
    exact exists_givesFields_iff

/-- What a filter holds follows its members. -/
theorem saysAbout : Filter.record.SaysAbout take fun key member? f =>
    Says f (Member.nonNull? member?) key := by
  constructor
  · intro key
    cases key <;> rfl
  · intro key m f f' h
    cases key with
    | condition =>
      rcases toOption_map_eq_some.mp h with ⟨w, hw, rfl⟩
      exact optionalWhereOfJson_eq_ok.mp hw
    | order =>
      rcases toOption_map_eq_some.mp h with ⟨entries, hentries, rfl⟩
      exact orderOfJson_eq_ok.mp hentries
    | skip =>
      rcases Option.map_eq_some_iff.mp h with ⟨n, hn, rfl⟩
      exact natural?_eq_some.mp hn
    | limit =>
      rcases Option.map_eq_some_iff.mp h with ⟨n, hn, rfl⟩
      exact natural?_eq_some.mp hn
    | fields =>
      rcases toOption_map_eq_some.mp h with ⟨names, hnames, rfl⟩
      exact fieldsOfJson_eq_ok.mp hnames
  · intro key key' member? m f f' h hne htells
    cases key with
    | condition =>
      rcases Option.map_eq_some_iff.mp h with ⟨w, -, rfl⟩
      cases key' with
      | condition => exact absurd rfl hne
      | order | skip | limit | fields => exact htells
    | order =>
      rcases Option.map_eq_some_iff.mp h with ⟨entries, -, rfl⟩
      cases key' with
      | order => exact absurd rfl hne
      | condition | skip | limit | fields => exact htells
    | skip =>
      rcases Option.map_eq_some_iff.mp h with ⟨n, -, rfl⟩
      cases key' with
      | skip => exact absurd rfl hne
      | condition | order | limit | fields => exact htells
    | limit =>
      rcases Option.map_eq_some_iff.mp h with ⟨n, -, rfl⟩
      cases key' with
      | limit => exact absurd rfl hne
      | condition | order | skip | fields => exact htells
    | fields =>
      rcases Option.map_eq_some_iff.mp h with ⟨names, -, rfl⟩
      cases key' with
      | fields => exact absurd rfl hne
      | condition | order | skip | limit => exact htells

end FilterKey

/-! ## Whole texts -/

/-- A text is read if it is not too large. -/
theorem readLimited_eq_ok_iff {α : Type}
    {read : Json.Cursor → Except Json.Failure (α × Json.Cursor)} {text : String} {a : α} :
    readLimited read text = .ok a ↔
      text.utf8ByteSize ≤ sizeLimit ∧ Json.readWhole? read text = .ok a := by
  unfold readLimited
  split
  · rename_i hlarge
    exact iff_of_false nofun fun h => absurd hlarge (Nat.not_lt.mpr h.1)
  · rename_i hlarge
    rw [and_iff_right (Nat.not_lt.mp hlarge)]
    cases Json.readWhole? read text <;> simp

namespace Filter

theorem name_injective : Function.Injective Filter.record.name := by
  intro key key' h
  cases key <;> cases key' <;> first | rfl | exact absurd h (by decide)

theorem mem_keys (key : FilterKey) : key ∈ Filter.record.keys := by
  cases key <;> decide

/-- The member of a name, if no name is repeated. -/
theorem find?_eq_some_iff {written : List Member} (hnodup : (written.map Member.key).Nodup)
    {name : String} {m : Member} :
    (written.find? fun m => m.key == name) = some m ↔ m ∈ written ∧ m.key = name := by
  constructor
  · intro h
    exact ⟨List.mem_of_find?_eq_some h,
      eq_of_beq (List.find?_some (p := fun m : Member => m.key == name) h)⟩
  · rintro ⟨hmem, hname⟩
    cases hfind : written.find? fun m => m.key == name with
    | none => exact absurd (beq_iff_eq.mpr hname) (List.find?_eq_none.mp hfind m hmem)
    | some m' =>
      have hmem' := List.mem_of_find?_eq_some hfind
      have hname' : m'.key = name :=
        eq_of_beq (List.find?_some (p := fun m : Member => m.key == name) hfind)
      rw [List.inj_on_of_nodup_map hnodup hmem' hmem (hname'.trans hname.symm)]

section
variable {text : String} {written : List Member}

/-- Reading a filter is a run over the members that are written. -/
theorem parse_eq_ok_iff_run (hsize : text.utf8ByteSize ≤ sizeLimit)
    (hwritten : Json.parseMembers text = .ok written) {f : Filter} :
    Filter.parse text = .ok f ↔ ∃ seen,
      written.foldlM (Filter.record.take FilterKey.take) (Filter.record.start, []) =
        some (f, seen) := by
  rcases Json.readWhole?_eq_ok.mp hwritten with ⟨c, hcollect, hend⟩
  have hrun : (Filter.record.read Json.depthLimit (Json.Cursor.start text)).toOption =
      (written.foldlM (Filter.record.take FilterKey.take) (Filter.record.start, [])).map
        fun state => (state.1, c) :=
    Json.Record.toOption_read (FilterKey.readsFields _) hcollect
  rw [Filter.parse, readLimited_eq_ok_iff, and_iff_right hsize, Json.readWhole?_eq_ok]
  constructor
  · rintro ⟨c', hread, -⟩
    rw [hread] at hrun
    rcases Option.map_eq_some_iff.mp hrun.symm with ⟨⟨f', seen⟩, hfold, heq⟩
    cases heq
    exact ⟨seen, hfold⟩
  · rintro ⟨seen, hfold⟩
    rw [hfold] at hrun
    refine ⟨c, ?_, hend⟩
    cases hread : Filter.record.read Json.depthLimit (Json.Cursor.start text) with
    | error failure =>
      rw [hread] at hrun
      cases hrun
    | ok result =>
      rw [hread] at hrun
      cases hrun
      rfl

/-- A text is a filter exactly if its members fit. -/
theorem exists_parse_iff (hsize : text.utf8ByteSize ≤ sizeLimit)
    (hwritten : Json.parseMembers text = .ok written)
    (hnodup : (written.map Member.key).Nodup) : (∃ f, Filter.parse text = .ok f) ↔
      ∀ m ∈ written, ∀ key : FilterKey, m.key = key.name → key.Fits m := by
  have hfits := Json.Record.exists_foldlM_iff (r := Filter.record) (s := Filter.record.start)
    FilterKey.exists_take_iff hnodup (fun _ _ => List.not_mem_nil)
  have hkey (m : Member) (key : FilterKey) :
      Filter.record.key? m.key = some key ↔ m.key = key.name :=
    (Json.Record.key?_eq_some name_injective mem_keys).trans eq_comm
  simp only [hkey] at hfits
  rw [← hfits, Prod.exists]
  exact exists_congr fun _ => parse_eq_ok_iff_run hsize hwritten

/-- The filter of a text holds what its members say. -/
theorem says_of_parse (hsize : text.utf8ByteSize ≤ sizeLimit)
    (hwritten : Json.parseMembers text = .ok written) {f : Filter}
    (h : Filter.parse text = .ok f) (key : FilterKey) :
    key.Says f (Json.present? key.name written) := by
  rcases (parse_eq_ok_iff_run hsize hwritten).mp h with ⟨seen, hrun⟩
  exact Json.Record.says_of_foldlM name_injective mem_keys FilterKey.saysAbout []
    FilterKey.saysAbout.start (by simp) hrun key

/-- The filter of a text, by the members that are written. -/
theorem parse_eq_ok_iff (hsize : text.utf8ByteSize ≤ sizeLimit)
    (hwritten : Json.parseMembers text = .ok written)
    (hnodup : (written.map Member.key).Nodup) {f : Filter} :
    Filter.parse text = .ok f ↔
      (∀ m ∈ written, ∀ key : FilterKey, m.key = key.name → key.Fits m) ∧
        ∀ key : FilterKey, key.Says f (Json.present? key.name written) := by
  have hexists := exists_parse_iff hsize hwritten hnodup
  constructor
  · intro h
    exact ⟨hexists.mp ⟨f, h⟩, says_of_parse hsize hwritten h⟩
  · rintro ⟨hfits, hf⟩
    rcases hexists.mpr hfits with ⟨f', h⟩
    rw [FilterKey.says_unique hf (says_of_parse hsize hwritten h)]
    exact h

end

/-- All members fit if those do that count. -/
theorem fits_iff {written : List Member} (hnodup : (written.map Member.key).Nodup) :
    (∀ m ∈ written, ∀ key : FilterKey, m.key = key.name → key.Fits m) ↔
      ∀ (key : FilterKey) (m : Member), Json.present? key.name written = some m → key.Fits m := by
  constructor
  · intro h key m hm
    have hfind := (find?_eq_some_iff hnodup).mp (Option.filter_eq_some_iff.mp hm).1
    exact h m hfind.1 key hfind.2
  · intro h m hm key hname
    by_cases hnull : m.value = .null
    · cases key <;> exact .inl hnull
    · refine h key m ?_
      rw [Json.present?, (find?_eq_some_iff hnodup).mpr ⟨hm, hname⟩, Member.nonNull?_of_ne hnull]

/-- An object without repeated keys is a filter exactly if each of its five members has one of
the shapes that may stand there, and the filter holds what these members say.  The object has
the members that are written. -/
theorem parse_object {text : String} {members : List (String × Json.Value)}
    (hsize : text.utf8ByteSize ≤ sizeLimit) (hobject : Json.parse text = .ok (.object members)) :
    ∃ written, Json.parseMembers text = .ok written ∧
      ((written.map Member.key).Nodup →
        members = written.map (fun m => (m.key, m.value)) ∧
        ((∃ f, Filter.parse text = .ok f) ↔
          ∀ m ∈ written, ∀ key : FilterKey, m.key = key.name → key.Fits m) ∧
        (∀ f, Filter.parse text = .ok f →
          ∀ key : FilterKey, key.Says f (Json.present? key.name written)) ∧
        ∀ text' written', text'.utf8ByteSize ≤ sizeLimit →
          Json.parseMembers text' = .ok written' → (written'.map Member.key).Nodup →
          (∀ key : FilterKey, Json.present? key.name written' = Json.present? key.name written) →
          (Filter.parse text').toOption = (Filter.parse text).toOption) := by
  rcases Json.exists_parseMembers hobject with ⟨written, hwritten, hmembers⟩
  refine ⟨written, hwritten, ?_⟩
  intro hnodup
  refine ⟨hmembers.trans (Json.Value.ofWritten_eq_map hnodup),
    exists_parse_iff hsize hwritten hnodup, ?_, ?_⟩
  · intro f hf
    exact says_of_parse hsize hwritten hf
  · intro text' written' hsize' hwritten' hnodup' hsame
    have htoOption (x : Except FilterError Filter) (f : Filter) :
        x.toOption = some f ↔ x = .ok f := by
      cases x <;> simp [Except.toOption]
    refine Option.ext ?_
    intro f
    rw [htoOption, htoOption, parse_eq_ok_iff hsize' hwritten' hnodup',
      parse_eq_ok_iff hsize hwritten hnodup, fits_iff hnodup', fits_iff hnodup]
    simp only [hsame]

/-- Of the selected fields one is not truthy, and nobody asked for the note. -/
theorem parse_object_fields : ∃ f,
    Filter.parse "\x7b\"skip\":5,\"fields\":\x7b\"id\":true,\"x\":0\x7d,\"note\":-1\x7d" = .ok f ∧
      f.skip = some 5 ∧ f.limit = none ∧ f.fields = ["id"] := by
  have hobject : Json.parse
      "\x7b\"skip\":5,\"fields\":\x7b\"id\":true,\"x\":0\x7d,\"note\":-1\x7d" = .ok (.object
        [("skip", .number (.int 5 (by decide))),
          ("fields", .object [("id", .bool true), ("x", .number (.int 0 (by decide)))]),
          ("note", .number (.int (-1) (by decide)))]) := rfl
  have hwritten : Json.parseMembers
      "\x7b\"skip\":5,\"fields\":\x7b\"id\":true,\"x\":0\x7d,\"note\":-1\x7d" = .ok
        [⟨"skip", ['5'], .number (.int 5 (by decide))⟩,
          ⟨"fields", "\x7b\"id\":true,\"x\":0\x7d".toList,
            .object [("id", .bool true), ("x", .number (.int 0 (by decide)))]⟩,
          ⟨"note", ['-', '1'], .number (.int (-1) (by decide))⟩] := rfl
  obtain ⟨written, hwritten', h⟩ := parse_object (by decide) hobject
  cases hwritten.symm.trans hwritten'
  obtain ⟨-, hfits, htells, -⟩ := h (by decide)
  have hskip : Decimal.readNatural? ['5'] = some (5 : UInt64).toNat := by decide
  obtain ⟨f, hf⟩ := hfits.mpr (by
    intro m hm key hname
    rw [List.mem_cons, List.mem_cons, List.mem_singleton] at hm
    rcases hm with rfl | rfl | rfl
    · cases key with
      | skip => exact .inr ⟨5, hskip⟩
      | condition | order | limit | fields => exact absurd hname (by decide)
    · cases key with
      | fields => exact .inr (.inl ⟨_, rfl⟩)
      | condition | order | skip | limit => exact absurd hname (by decide)
    · cases key <;> exact absurd hname (by decide))
  refine ⟨f, hf, ?_, ?_, ?_⟩
  · obtain ⟨n, hn, hsource⟩ := htells f hf .skip
    rw [hn, UInt64.toNat_inj.mp (Option.some.inj (hsource.symm.trans hskip))]
  · exact htells f hf .limit
  · obtain ⟨members, hvalue, hselects⟩ | hvalue := htells f hf .fields
    · cases hvalue
      exact selectsFields_iff.mp hselects
    · cases hvalue

end Filter

end GraphFilter
