import GraphFilter.Proofs.Filter.Read
import GraphFilter.Proofs.Json.Arrays

/-!
# Texts of filters that are no objects

A filter is described as an object.  A text that is an array is read as well, though: its
elements are taken for the members in their fixed order, and as every member may be left out,
the array may be short.  Any other text is refused, and a where object is never read from an
array.

Main results:

- Theorem {lit}`FilterKey.admits_record`: the elements that may stand for a member.
- Theorem {lit}`Filter.parse_other`: the texts that are read although they are no objects.
-/

namespace GraphFilter

open Json (Member)

/-! ## Elements -/

namespace FilterKey

/-- The values that may stand for a member. -/
def Admits : FilterKey → Json.Value → Prop
  | condition, v => v = .null ∨ v.IsWhere
  | order, v => v = .null ∨ (∃ entry, v = .string entry) ∨
      ∃ entries : List String, v = .array (entries.map .string)
  | skip, v | limit, v => v = .null ∨
      ∃ (n : UInt64) (hkeeps : _), v = .number (.int n.toNat hkeeps)
  | fields, v => v = .null ∨ (∃ members, v = .object members) ∨
      ∃ names : List String, v = .array (names.map .string)

/-- They are those of the members that fit. -/
theorem fits_iff_admits (key : FilterKey) {depth : Nat} {name : String} {c c' : Json.Cursor}
    {m : Member} (h : Json.readMemberValue depth name c = .ok (m, c')) :
    key.Fits m ↔ key.Admits m.value := by
  rcases Json.readValue_of_readMemberValue h with ⟨hvalue, -, hsource⟩
  cases key with
  | condition | order | fields => exact Iff.rfl
  | skip | limit =>
    refine or_congr_right (exists_congr fun n => ?_)
    have hle : n.toNat ≤ Json.greatestSignificand := Nat.le_of_lt_succ n.toNat_lt
    rw [Json.readValue_eq_natural_iff hvalue, ← hsource, and_iff_left hle]

/-- Whether an element is taken depends on its value alone. -/
theorem admits_record (depth : Nat) : Filter.record.Admits depth Admits := by
  intro key f c v c₁ c₂ hvalue
  have hmember := Json.readMemberValue_of_readValue "" hvalue
  have hread := readsFields depth key f "" c _ c₁ hmember
  rw [← key.fits_iff_admits hmember, ← exists_take_iff key _ f]
  constructor
  · rintro ⟨f', hf'⟩
    rw [hf'] at hread
    rcases Option.map_eq_some_iff.mp hread.symm with ⟨f'', htake, heq⟩
    cases heq
    exact ⟨rfl, f', htake⟩
  · rintro ⟨rfl, f', htake⟩
    rw [htake] at hread
    cases hfield : Filter.record.readField depth key f c with
    | error failure =>
      rw [hfield] at hread
      cases hread
    | ok result =>
      rw [hfield] at hread
      cases hread
      exact ⟨f', rfl⟩

end FilterKey

/-! ## Whole texts -/

section
variable {text : String} {v : Json.Value} (hvalue : Json.parse text = .ok v)
include hvalue

/-- Among the values that are no objects, filters are read from arrays. -/
theorem Filter.exists_parse_iff_of_ne_object (hobject : ∀ members, v ≠ .object members) :
    (∃ f, Filter.parse text = .ok f) ↔ text.utf8ByteSize ≤ sizeLimit ∧ ∃ items, v = .array items ∧
      List.Forall₂ FilterKey.Admits (FilterKey.all.take items.length) items := by
  rcases Json.readWhole?_eq_ok.mp hvalue with ⟨c, hread, hend⟩
  have hrecord (c' : Json.Cursor) :
      (∃ f, Filter.record.read (126 + 1) (Json.Cursor.start text) = .ok (f, c')) ↔ c' = c ∧
        ∃ items, v = .array items ∧
          List.Forall₂ FilterKey.Admits (FilterKey.all.take items.length) items :=
    Json.Record.exists_read_iff rfl (FilterKey.admits_record 126) hread hobject
  simp only [Filter.parse, readLimited_eq_ok_iff, exists_and_left]
  refine and_congr_right fun _ => ?_
  constructor
  · rintro ⟨f, hf⟩
    rcases Json.readWhole?_eq_ok.mp hf with ⟨c', hf', -⟩
    exact ((hrecord c').mp ⟨f, hf'⟩).2
  · intro hplaced
    rcases (hrecord c).mpr ⟨rfl, hplaced⟩ with ⟨f, hf⟩
    exact ⟨f, Json.readWhole?_eq_ok.mpr ⟨c, hf, hend⟩⟩

/-- A where object is read from its value. -/
theorem Where.parse_eq_ok_iff {w : Where} : Where.parse text = .ok w ↔
    text.utf8ByteSize ≤ sizeLimit ∧ Where.ofJson v = .ok w := by
  rcases Json.readWhole?_eq_ok.mp hvalue with ⟨c, hread, hend⟩
  have hconverted : Json.readConverted Json.depthLimit whereOfJson (Json.Cursor.start text) =
      match whereOfJson v with
      | .ok w => .ok (w, c)
      | .error fault => .error (.unplaced fault c) := by
    rw [Json.readConverted, hread]
    dsimp only [bind, Except.bind]
    cases whereOfJson v <;> rfl
  rw [Where.parse, readLimited_eq_ok_iff, Json.readWhole?_eq_ok, hconverted, whereOfJson]
  refine and_congr_right fun _ => ?_
  cases Where.ofJson v with
  | error fault => simp
  | ok w' => simp [List.isEmpty_iff.mp hend]

/-- Among the texts that are no objects, a filter is read from an array exactly if each of its
elements may stand for the member at its place, and there is one; no filter is read from null, a
boolean, a number or a string.  A where object is read from null alone. -/
theorem Filter.parse_other (hobject : ∀ members, v ≠ .object members) :
    ((∃ f, Filter.parse text = .ok f) ↔ text.utf8ByteSize ≤ sizeLimit ∧
      ∃ items, v = .array items ∧
        List.Forall₂ FilterKey.Admits (FilterKey.all.take items.length) items) ∧
      ((∃ w, Where.parse text = .ok w) ↔ text.utf8ByteSize ≤ sizeLimit ∧ v = .null) := by
  refine ⟨Filter.exists_parse_iff_of_ne_object hvalue hobject, ?_⟩
  simp only [Where.parse_eq_ok_iff hvalue, exists_and_left]
  rw [Where.exists_ofJson_iff, or_iff_left (Where.not_isWhere_of_ne_object hobject)]

end

/-- An array that ends before the places of `limit` and `fields`. -/
theorem Filter.parse_other_early :
    (∃ f, Filter.parse "[null,[\"x\"],2]" = .ok f) ∧
      ¬∃ w, Where.parse "[null,[\"x\"],2]" = .ok w := by
  have hvalue : Json.parse "[null,[\"x\"],2]" =
      .ok (.array [.null, .array [.string "x"], .number (.int 2 (by decide))]) := rfl
  obtain ⟨hfilter, hwhere⟩ := Filter.parse_other hvalue nofun
  have hplaced : List.Forall₂ FilterKey.Admits [.condition, .order, .skip]
      [.null, .array [.string "x"], .number (.int 2 (by decide))] :=
    .cons (.inl rfl) (.cons (.inr (.inr ⟨["x"], rfl⟩)) (.cons (.inr ⟨2, by decide, rfl⟩) .nil))
  refine ⟨hfilter.mpr ⟨by decide, _, rfl, hplaced⟩, ?_⟩
  intro h
  cases (hwhere.mp h).2

/-- A filter is read from a text that is an array. -/
theorem Filter.parse_array : ∃ items, Json.parse "[null,\"x\"]" = .ok (.array items) ∧
    ∃ f, Filter.parse "[null,\"x\"]" = .ok f :=
  ⟨_, rfl, _, rfl⟩

end GraphFilter
