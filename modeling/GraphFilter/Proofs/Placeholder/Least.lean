import GraphFilter.Proofs.Placeholder.Calls
import Mathlib.Algebra.Group.Nat.Defs
import Mathlib.Order.Bounds.Basic

/-!
# The least free number

A supply looks for a free number by raising a counter, turn by turn, until the name with that
number is not taken.  Nothing in the loop bounds it.  It ends because the numbers up to the one
reached for a field all belong to names that are taken: what it passes over are different names
again, and there are only as many as were handed out.  For the same reason it finds the least
free number, and a counter of 32 bits is enough for fewer than `2 ^ 32 - 1` names.

Main results:

- Theorem {lit}`NameSupply.search_eq_found`: the loop stops at the free number that the supply
  uses.
- Theorem {lit}`NameSupply.Counted.isLeast`: no smaller number is free.
- Theorem {lit}`NameSupply.next_least`: the loop in every state that a supply can reach.
-/

namespace GraphFilter

namespace NameSupply

/-! ## The loop -/

/-- How a loop ends, after as many turns as it is given. -/
inductive SearchEnd where
  | found (number : UInt32)
  | overflow
  | unfinished
deriving DecidableEq

/-- Look for a free number with a counter of 32 bits.  Each turn raises the counter, which must
have room for that, and is the last one if the name with the new number is not taken. -/
def search (taken : List String) (base : String) : Nat → UInt32 → SearchEnd
  | 0, _ => .unfinished
  | turns + 1, count =>
    if count.toNat + 1 < UInt32.size then
      if taken.contains (numbered base (count + 1).toNat) then search taken base turns (count + 1)
      else .found (count + 1)
    else .overflow

theorem toNat_add_one {count : UInt32} (h : count.toNat + 1 < UInt32.size) :
    (count + 1).toNat = count.toNat + 1 := by
  rw [UInt32.toNat_add]
  exact Nat.mod_eq_of_lt h

/-- The loop stops at the first free number, if the counter has room for it. -/
theorem search_eq_found {taken : List String} {base : String} {steps number : Nat} {count : UInt32}
    (hnumber : firstFree taken base steps (count.toNat + 1) = number)
    (hroom : number < UInt32.size) (hfree : numbered base number ∉ taken) :
    search taken base (steps + 1) count = .found (UInt32.ofNat number) := by
  induction steps generalizing count with
  | zero =>
    have hnext : count.toNat + 1 = number := hnumber
    have hstart : count.toNat + 1 < UInt32.size := hnext ▸ hroom
    rw [← hnext, ← toNat_add_one hstart] at hfree ⊢
    rw [search, if_pos hstart, if_neg (by simpa using hfree), UInt32.ofNat_toNat]
  | succ steps ih =>
    have hstart : count.toNat + 1 < UInt32.size := by
      have hle := (firstFree_spec taken base (steps + 1) (count.toNat + 1)).2.1
      omega
    rw [search, if_pos hstart, toNat_add_one hstart]
    by_cases htaken : numbered base (count.toNat + 1) ∈ taken
    · have hrest : firstFree taken base steps ((count + 1).toNat + 1) = number := by
        rw [toNat_add_one hstart, ← hnumber]
        simp [firstFree, htaken]
      rw [if_pos (by simpa using htaken)]
      exact ih hrest
    · have hstop : count.toNat + 1 = number := by
        rw [← hnumber]
        simp [firstFree, htaken]
      rw [if_neg (by simpa using htaken), ← hstop, ← toNat_add_one hstart, UInt32.ofNat_toNat]

/-! ## The number that is found -/

section
variable {s : NameSupply}

/-- The number that is handed out is the least one that is free. -/
theorem Counted.isLeast (h : s.Counted) (field : String) :
    IsLeast {k | 0 < k ∧ numbered (placeholderBase field) k ∉ s.issued}
      ((s.next field).2.count field) := by
  rw [count_next]
  rcases firstFree_spec s.issued (placeholderBase field) s.issued.length (s.count field + 1) with
    ⟨-, hstart, hpassed⟩
  refine ⟨⟨by omega, firstFree_not_mem _ _ _⟩, ?_⟩
  rintro k ⟨hpos, hfree⟩
  by_contra hlt
  rw [not_le] at hlt
  by_cases hbefore : k ≤ s.count field
  · exact hfree (h field k hpos hbefore)
  · exact hfree (hpassed k (by omega) hlt)

/-- One more name was handed out than the number that is found can exceed. -/
theorem Counted.count_next_le (h : s.Counted) (field : String) :
    (s.next field).2.count field ≤ s.issued.length + 1 :=
  (h.next field).count_le field

/-! ## Supplies that can be reached -/

/-- Whether a supply is what calls in a row lead to. -/
def IsReached (s : NameSupply) : Prop :=
  ∃ fields, (empty.nextAll fields).2 = s

theorem IsReached.counted (h : s.IsReached) : s.Counted := by
  rcases h with ⟨fields, rfl⟩
  exact counted_empty.nextAll fields

/-- In every state that a supply can reach with fewer than `2 ^ 32 - 1` names, the loop ends
within one turn more than there are names, without overflow, at the least free number, and the
name has this number behind its base.  No number that was reached is greater than the number of
names.  So the name depends on the base and on which names are taken, and on nothing else. -/
theorem next_least (h : s.IsReached) (hroom : s.issued.length < 2 ^ 32 - 1) (field : String) :
    (∃ count number : UInt32, count.toNat = s.count field ∧
      search s.issued (placeholderBase field) (s.issued.length + 1) count = .found number ∧
      (s.next field).1 = numbered (placeholderBase field) number.toNat ∧
      (s.next field).2.count field = number.toNat ∧
      IsLeast {k | 0 < k ∧ numbered (placeholderBase field) k ∉ s.issued} number.toNat) ∧
    s.count field ≤ s.issued.length ∧
    ∀ t : NameSupply, t.IsReached → (∀ name, name ∈ t.issued ↔ name ∈ s.issued) →
      ∀ other, placeholderBase other = placeholderBase field →
        (t.next other).1 = (s.next field).1 := by
  have hleast := h.counted.isLeast field
  have hcount := h.counted.count_le field
  refine ⟨?_, hcount, ?_⟩
  · have hnumber := h.counted.count_next_le field
    have hsmall : (s.next field).2.count field < UInt32.size := by
      unfold UInt32.size
      omega
    have hstart : (UInt32.ofNat (s.count field)).toNat = s.count field :=
      UInt32.toNat_ofNat_of_lt (by unfold UInt32.size; omega)
    have hend : (UInt32.ofNat ((s.next field).2.count field)).toNat =
        (s.next field).2.count field := UInt32.toNat_ofNat_of_lt hsmall
    refine ⟨UInt32.ofNat (s.count field), UInt32.ofNat ((s.next field).2.count field), hstart, ?_,
      ?_, hend.symm, ?_⟩
    · refine search_eq_found ?_ hsmall hleast.1.2
      rw [hstart, count_next]
    · rw [hend]
      exact s.next_eq field
    · rw [hend]
      exact hleast
  · intro t ht hissued other hbase
    have hother := ht.counted.isLeast other
    simp only [hbase, hissued] at hother
    rw [t.next_eq, s.next_eq, hbase, hother.unique hleast]

end

/-- A field without a name of its own passes over the names of another one with the same base. -/
theorem next_least_passed : ∃ count number : UInt32, count.toNat = 0 ∧
    search ["x_y2", "x_y1"] "x_y" 3 count = .found number ∧
    IsLeast {k | 0 < k ∧ numbered "x_y" k ∉ ["x_y2", "x_y1"]} number.toNat := by
  have hreached : IsReached ⟨[("x.y", 2), ("x.y", 1)], ["x_y2", "x_y1"]⟩ :=
    ⟨["x.y", "x.y"], by rfl⟩
  obtain ⟨⟨count, number, hcount, hsearch, -, -, hleast⟩, -⟩ :=
    next_least hreached (by decide) "x_y"
  exact ⟨count, number, hcount, hsearch, hleast⟩

end NameSupply

end GraphFilter
