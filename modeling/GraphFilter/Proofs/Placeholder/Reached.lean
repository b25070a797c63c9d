import GraphFilter.Proofs.Placeholder.Calls

/-!
# Numbers reached and names handed out

The number reached for a field is where the search for its next name goes on.  It is also what a
supply answers if it is asked how many names the field was given.  The two differ as soon as the
search passes over a name that another field took: such a name is counted too, and it stays
counted.

Main results:

- Theorems {lit}`NameSupply.mem_firstNames_of_mem_record` and {lit}`NameSupply.count_nextAll_cases`:
  the names that a field was given have numbers up to the one that was reached, and the last of
  them has this number.
- Theorem {lit}`NameSupply.count_nextAll`: the number reached for a field is the number of its
  names and of those that it lost to other fields.
-/

namespace GraphFilter

namespace NameSupply

/-! ## Names with their fields -/

/-- The names that calls in a row hand out, each behind the field that it is for. -/
def record (s : NameSupply) (fields : List String) : List (String × String) :=
  fields.zip (s.nextAll fields).1

/-- The first `n` names that a field can be given. -/
def firstNames (field : String) (n : Nat) : List String :=
  (List.range' 1 n).map (numbered (placeholderBase field))

/-- The names that calls in a row hand out for one field. -/
def given (s : NameSupply) (fields : List String) (field : String) : List String :=
  ((s.record fields).filter (·.1 == field)).map Prod.snd

/-- Those of the first `n` names of a field that calls in a row hand out for other fields. -/
def lost (s : NameSupply) (fields : List String) (field : String) (n : Nat) :
    List (String × String) :=
  (s.record fields).filter fun entry => (firstNames field n).contains entry.2 && entry.1 != field

theorem length_nextAll (s : NameSupply) (fields : List String) :
    (s.nextAll fields).1.length = fields.length := by
  induction fields generalizing s with
  | nil => rfl
  | cons field fields ih => exact congrArg (· + 1) (ih (s.next field).2)

@[simp]
theorem map_fst_record (s : NameSupply) (fields : List String) :
    (s.record fields).map Prod.fst = fields :=
  List.map_fst_zip (Nat.le_of_eq (s.length_nextAll fields).symm)

@[simp]
theorem map_snd_record (s : NameSupply) (fields : List String) :
    (s.record fields).map Prod.snd = (s.nextAll fields).1 :=
  List.map_snd_zip (Nat.le_of_eq (s.length_nextAll fields))

theorem record_cons (s : NameSupply) (field : String) (fields : List String) :
    s.record (field :: fields) = (field, (s.next field).1) :: (s.next field).2.record fields :=
  rfl

theorem mem_given {s : NameSupply} {fields : List String} {field name : String} :
    name ∈ s.given fields field ↔ (field, name) ∈ s.record fields := by
  simp [given]

/-- Each call for a field gives it one name. -/
theorem length_given (s : NameSupply) (fields : List String) (field : String) :
    (s.given fields field).length = fields.count field := by
  have hfields : fields.count field = ((s.record fields).map Prod.fst).count field := by
    rw [map_fst_record]
  rw [hfields, List.count, List.countP_map, given, List.length_map, List.countP_eq_length_filter]
  rfl

theorem mem_firstNames {field name : String} {n : Nat} :
    name ∈ firstNames field n ↔
      ∃ k, 0 < k ∧ k ≤ n ∧ numbered (placeholderBase field) k = name := by
  simp only [firstNames, List.mem_map, List.mem_range'_1]
  constructor
  · rintro ⟨k, ⟨hpos, hlt⟩, hname⟩
    exact ⟨k, hpos, by omega, hname⟩
  · rintro ⟨k, hpos, hle, hname⟩
    exact ⟨k, ⟨hpos, by omega⟩, hname⟩

@[simp]
theorem length_firstNames (field : String) (n : Nat) : (firstNames field n).length = n := by
  simp [firstNames]

theorem nodup_firstNames (field : String) (n : Nat) : (firstNames field n).Nodup :=
  List.Nodup.map (numbered_injective _) List.nodup_range'

theorem firstNames_mono (field : String) {m n : Nat} (h : m ≤ n) :
    firstNames field m ⊆ firstNames field n := by
  intro name hname
  rcases mem_firstNames.mp hname with ⟨k, hpos, hle, rfl⟩
  exact mem_firstNames.mpr ⟨k, hpos, Nat.le_trans hle h, rfl⟩

theorem lost_eq_nil_iff {s : NameSupply} {fields : List String} {field : String} {n : Nat} :
    s.lost fields field n = [] ↔
      ∀ other name, (other, name) ∈ s.record fields → name ∈ firstNames field n →
        other = field := by
  simp only [lost, List.filter_eq_nil_iff, Prod.forall, Bool.and_eq_true, bne_iff_ne,
    List.contains_iff_mem, not_and, not_not]

/-! ## The number that is reached -/

/-- No number ever goes down. -/
theorem count_le_count_next (s : NameSupply) (field other : String) :
    s.count other ≤ (s.next field).2.count other := by
  by_cases h : other = field
  · rw [h]
    exact Nat.le_of_lt (s.count_lt_count_next field)
  · exact Nat.le_of_eq (s.count_next_of_ne h).symm

theorem count_le_count_nextAll (s : NameSupply) (fields : List String) (field : String) :
    s.count field ≤ (s.nextAll fields).2.count field := by
  induction fields generalizing s with
  | nil => exact Nat.le_refl _
  | cons other fields ih =>
    exact Nat.le_trans (s.count_le_count_next other field) (ih (s.next other).2)

/-- A name that a field is given is one of the first names of the field, up to the number that is
reached in the end. -/
theorem mem_firstNames_of_mem_record {s : NameSupply} {fields : List String} {field name : String}
    (h : (field, name) ∈ s.record fields) :
    name ∈ firstNames field ((s.nextAll fields).2.count field) := by
  induction fields generalizing s with
  | nil => cases h
  | cons other fields ih =>
    rw [record_cons, List.mem_cons] at h
    rcases h with heq | hrest
    · cases heq
      refine mem_firstNames.mpr ⟨(s.next field).2.count field, ?_, ?_, (s.next_eq field).symm⟩
      · exact Nat.zero_lt_of_lt (s.count_lt_count_next field)
      · exact (s.next field).2.count_le_count_nextAll fields field
    · exact ih hrest

/-- The number of a field is still what it was, or it stands in a name that the field was given. -/
theorem count_nextAll_cases (s : NameSupply) (fields : List String) (field : String) :
    (s.nextAll fields).2.count field = s.count field ∨
      (field, numbered (placeholderBase field) ((s.nextAll fields).2.count field)) ∈
        s.record fields := by
  induction fields generalizing s with
  | nil => exact Or.inl rfl
  | cons other fields ih =>
    rw [record_cons, List.mem_cons]
    rcases ih (s.next other).2 with hsame | hlater
    · have hcount : (s.nextAll (other :: fields)).2.count field = (s.next other).2.count field :=
        hsame
      rw [hcount]
      by_cases hother : field = other
      · -- the first call is the last one for the field
        subst hother
        rw [s.next_eq]
        exact Or.inr (Or.inl rfl)
      · exact Or.inl (s.count_next_of_ne hother)
    · exact Or.inr (Or.inr hlater)

/-! ## Counting names -/

section
variable (fields : List String) (field : String)

theorem issued_nextAll : (empty.nextAll fields).2.issued = (empty.nextAll fields).1.reverse := by
  rw [(empty.handsOut_nextAll fields).issued]
  exact List.append_nil _

/-- The names up to the number reached for a field are names that were handed out. -/
theorem firstNames_subset :
    firstNames field ((empty.nextAll fields).2.count field) ⊆ (empty.nextAll fields).1 := by
  intro name hname
  rcases mem_firstNames.mp hname with ⟨k, hpos, hle, rfl⟩
  have htaken := counted_empty.nextAll fields field k hpos hle
  rw [issued_nextAll, List.mem_reverse] at htaken
  exact htaken

/-- The number reached for a field tells how many of the names that were handed out are among its
first names. -/
theorem count_eq_countP : (empty.nextAll fields).2.count field =
    (empty.nextAll fields).1.countP
      ((firstNames field ((empty.nextAll fields).2.count field)).contains ·) := by
  have hsubset := firstNames_subset fields field
  have hnodup := (empty.handsOut_nextAll fields).nodup
  generalize (empty.nextAll fields).2.count field = n at hsubset ⊢
  have hperm : (firstNames field n).Perm
      ((empty.nextAll fields).1.filter ((firstNames field n).contains ·)) := by
    rw [List.perm_ext_iff_of_nodup (nodup_firstNames field n) (hnodup.filter _)]
    intro name
    rw [List.mem_filter, List.contains_iff_mem]
    exact ⟨fun h => ⟨hsubset h, h⟩, And.right⟩
  rw [List.countP_eq_length_filter, ← hperm.length_eq, length_firstNames]

/-- The number reached for a field is that of the names it was given and of those it lost. -/
theorem count_eq_add_length_lost : (empty.nextAll fields).2.count field =
    fields.count field +
      (empty.lost fields field ((empty.nextAll fields).2.count field)).length := by
  have hown : ∀ name ∈ empty.given fields field,
      (firstNames field ((empty.nextAll fields).2.count field)).contains name = true := by
    intro name hname
    exact List.contains_iff_mem.mpr (mem_firstNames_of_mem_record (mem_given.mp hname))
  have hall := count_eq_countP fields field
  generalize (empty.nextAll fields).2.count field = n at hown hall ⊢
  calc
    n = (empty.record fields).countP ((firstNames field n).contains ·.2) := by
      rw [← map_snd_record, List.countP_map] at hall
      exact hall
    _ = (empty.given fields field).countP ((firstNames field n).contains ·) +
          (empty.lost fields field n).length := by
      rw [List.countP_eq_countP_filter_add _ _ (·.1 == field), given, List.countP_map, lost,
        ← List.filter_filter, ← List.countP_eq_length_filter]
      rfl
    _ = fields.count field + (empty.lost fields field n).length := by
      rw [List.countP_eq_length.mpr hown, length_given]

/-- A field that lost none of its first names to others was given just these. -/
theorem count_eq_of_lost_eq_nil (h : empty.lost fields field (fields.count field) = []) :
    (empty.nextAll fields).2.count field = fields.count field := by
  have hcount := count_eq_add_length_lost fields field
  by_contra hne
  have hlt : fields.count field < (empty.nextAll fields).2.count field := by omega
  have hsubset : firstNames field (fields.count field) ⊆ empty.given fields field := by
    intro name hname
    have hissued := firstNames_subset fields field (firstNames_mono field (Nat.le_of_lt hlt) hname)
    rw [← map_snd_record, List.mem_map] at hissued
    rcases hissued with ⟨⟨other, name⟩, hmem, rfl⟩
    rw [← lost_eq_nil_iff.mp h other name hmem hname]
    exact mem_given.mpr hmem
  have hperm : (firstNames field (fields.count field)).Perm (empty.given fields field) := by
    refine ((nodup_firstNames field _).subperm hsubset).perm_of_length_le ?_
    exact Nat.le_of_eq (by rw [length_given, length_firstNames])
  rcases empty.count_nextAll_cases fields field with hzero | hlast
  · exact Nat.not_lt_zero _ (hzero ▸ hlt)
  · -- the last name of the field is one of its first names, so that its number is too small
    have hfirst := hperm.mem_iff.mpr (mem_given.mpr hlast)
    rcases mem_firstNames.mp hfirst with ⟨k, -, hle, hname⟩
    have hk := numbered_injective _ hname
    omega

/-- After calls in a row, the number reached for a field is the number of its calls together with
the names up to it that went to other fields.  So it is just the number of its calls exactly if
none of as many first names of the field went to another one.  In any case it is no greater than
the number of all calls. -/
theorem count_nextAll :
    (empty.nextAll fields).2.count field =
        fields.count field +
          (empty.lost fields field ((empty.nextAll fields).2.count field)).length ∧
      ((empty.nextAll fields).2.count field = fields.count field ↔
        empty.lost fields field (fields.count field) = []) ∧
      (empty.nextAll fields).2.count field ≤ fields.length := by
  have hcount := count_eq_add_length_lost fields field
  refine ⟨hcount, ⟨?_, count_eq_of_lost_eq_nil fields field⟩, ?_⟩
  · intro heq
    rw [heq] at hcount
    exact List.length_eq_zero_iff.mp (by omega)
  · have hle := (counted_empty.nextAll fields).count_le field
    rw [issued_nextAll, List.length_reverse, length_nextAll] at hle
    exact hle

end

/-- A field whose first name went to another field counts it among its own. -/
theorem count_nextAll_lost :
    (empty.nextAll ["a.b", "a_b"]).2.count "a_b" = 2 ∧ ["a.b", "a_b"].count "a_b" = 1 :=
  ⟨rfl, rfl⟩

/-- The eleventh name of a field may be lost to one whose base has a digit more. -/
example : (empty.nextAll ("a1" :: List.replicate 11 "a")).2.count "a" = 12 := by
  decide +kernel

end NameSupply

end GraphFilter
