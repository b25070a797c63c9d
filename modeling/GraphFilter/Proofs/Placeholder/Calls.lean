import GraphFilter.Proofs.Placeholder.Fresh

/-!
# Names handed out in a row

However a supply is used, all that happens to it is that names are handed out for some
fields, one after the other.  The number reached for a field may have passed over names
that other fields took, but only over those, so that it never gets ahead of the names that
were handed out.

Main results:

- Theorem {lit}`NameSupply.handsOut_nextAll`: names handed out in a row are new and all
  different.
- Theorem {lit}`NameSupply.Counted.count_le`: no number that was reached is greater than
  the number of names that were handed out.
-/

namespace GraphFilter

namespace NameSupply

/-! ## Calls in a row -/

/-- Hand out a name for each field, one after the other. -/
def nextAll (s : NameSupply) : List String → List String × NameSupply
  | [] => ([], s)
  | field :: fields =>
    let (name, s) := s.next field
    let (names, s) := s.nextAll fields
    (name :: names, s)

theorem nextAll_append (s : NameSupply) (fields others : List String) :
    s.nextAll (fields ++ others) =
      ((s.nextAll fields).1 ++ ((s.nextAll fields).2.nextAll others).1,
        ((s.nextAll fields).2.nextAll others).2) := by
  induction fields generalizing s with
  | nil => rfl
  | cons field fields ih =>
    simp only [List.cons_append, nextAll, ih]

/-- Names handed out in a row are new and all different. -/
theorem handsOut_nextAll (s : NameSupply) (fields : List String) :
    s.HandsOut (s.nextAll fields).1 (s.nextAll fields).2 := by
  induction fields generalizing s with
  | nil => exact HandsOut.refl s
  | cons field fields ih => exact (handsOut_next s field).trans (ih (s.next field).2)

/-- The names that were handed out between two states can be read off the states. -/
theorem HandsOut.names_eq {s t : NameSupply} {names others : List String}
    (h : s.HandsOut names t) (h' : s.HandsOut others t) : names = others := by
  have hissued := h.issued.symm.trans h'.issued
  exact List.reverse_injective (List.append_cancel_right hissued)

/-! ## Numbers and names -/

/-- Each number up to the one reached for a field belongs to a name that is taken. -/
def Counted (s : NameSupply) : Prop :=
  ∀ field k, 0 < k → k ≤ s.count field → numbered (placeholderBase field) k ∈ s.issued

theorem counted_empty : empty.Counted := by
  intro field k hpos hle
  exact absurd hpos (Nat.not_lt_of_ge hle)

/-- The number reached for a field is the one in the name that was handed out for it. -/
theorem count_next (s : NameSupply) (field : String) : (s.next field).2.count field =
    firstFree s.issued (placeholderBase field) s.issued.length (s.count field + 1) := by
  simp [count, NameSupply.next]

/-- The name with the number reached for its field. -/
theorem next_eq (s : NameSupply) (field : String) :
    (s.next field).1 = numbered (placeholderBase field) ((s.next field).2.count field) := by
  rw [count_next]
  rfl

/-- A call raises the number of its field. -/
theorem count_lt_count_next (s : NameSupply) (field : String) :
    s.count field < (s.next field).2.count field := by
  rw [count_next]
  exact (firstFree_spec _ _ _ _).2.1

/-- The numbers of other fields stay what they are. -/
theorem count_next_of_ne (s : NameSupply) {field other : String} (h : other ≠ field) :
    (s.next field).2.count other = s.count other := by
  simp [count, NameSupply.next, List.lookup_cons, beq_false_of_ne h]

theorem Counted.next {s : NameSupply} (h : s.Counted) (field : String) :
    (s.next field).2.Counted := by
  intro other k hpos hle
  rw [issued_next, List.mem_cons]
  by_cases hother : other = field
  · rw [hother] at hle ⊢
    rw [count_next] at hle
    rcases Nat.eq_or_lt_of_le hle with rfl | hlt
    · exact Or.inl rfl
    · -- a smaller number was reached before, or it was passed over
      right
      by_cases hbefore : k ≤ s.count field
      · exact h field k hpos hbefore
      · exact (firstFree_spec _ _ _ _).2.2 k (by omega) hlt
  · rw [s.count_next_of_ne hother] at hle
    exact Or.inr (h other k hpos hle)

theorem Counted.nextAll {s : NameSupply} (h : s.Counted) (fields : List String) :
    (s.nextAll fields).2.Counted := by
  induction fields generalizing s with
  | nil => exact h
  | cons field fields ih => exact ih (h.next field)

/-- No number that was reached is greater than the number of names that were handed out. -/
theorem Counted.count_le {s : NameSupply} (h : s.Counted) (field : String) :
    s.count field ≤ s.issued.length := by
  have htaken : ∀ k, 1 ≤ k → k < 1 + s.count field →
      numbered (placeholderBase field) k ∈ s.issued :=
    fun k hpos hlt => h field k hpos (by omega)
  exact le_length_of_taken htaken

end NameSupply

end GraphFilter
