import GraphFilter.Placeholder
import Mathlib.Data.List.Perm.Subperm
import Mathlib.Data.List.Nodup

/-!
# Fresh placeholder names

A supply of names never repeats itself.  The search for a free number needs no
more steps than names were handed out, because the candidates of one base are all
different and so cannot all be taken.

Main results:

- Theorem {lit}`NameSupply.next_not_mem_issued`: the name handed out is new, in
  every state of the supply.
- Theorem {lit}`NameSupply.HandsOut.trans`: the names of two runs in a row are all
  different.
- Theorem {lit}`IsPlaceholder.isParamChar`: a name needs no quotation.
- Theorem {lit}`IsPlaceholder.ne_of_getLast`: a name cannot be confused with a
  parameter whose name does not end in a digit.
-/

namespace GraphFilter

/-! ## Numbered names -/

theorem toList_numbered (base : String) (n : Nat) :
    (numbered base n).toList = base.toList ++ Nat.toDigits 10 n := by
  rw [numbered, String.toList_append]
  congr 1
  exact Nat.toList_repr

/-- One base with different numbers gives different names. -/
theorem numbered_injective (base : String) : Function.Injective (numbered base) := by
  intro m n h
  have hlists := congrArg String.toList h
  rw [toList_numbered, toList_numbered] at hlists
  have hdigits := List.append_cancel_left hlists
  calc
    m = Nat.ofDigitChars 10 (Nat.toDigits 10 m) 0 := Nat.ofDigitChars_ten_toDigits.symm
    _ = Nat.ofDigitChars 10 (Nat.toDigits 10 n) 0 := by rw [hdigits]
    _ = n := Nat.ofDigitChars_ten_toDigits

/-- Names that a supply can hand out. -/
def IsPlaceholder (name : String) : Prop :=
  ∃ field n, name = numbered (placeholderBase field) n

/-- The base of a field consists of the characters of parameters. -/
theorem isParamChar_of_mem_placeholderBase {field : String} {c : Char}
    (h : c ∈ (placeholderBase field).toList) : isParamChar c = true := by
  unfold placeholderBase at h
  split at h
  · exact List.all_eq_true.mp (by decide) c h
  · rw [String.toList_ofList, List.mem_map] at h
    rcases h with ⟨d, -, rfl⟩
    split
    · assumption
    · decide

namespace IsPlaceholder

variable {name : String}

/-- A placeholder consists of the characters of parameters. -/
theorem isParamChar (h : IsPlaceholder name) : ∀ c ∈ name.toList, isParamChar c = true := by
  rcases h with ⟨field, n, rfl⟩
  intro c hc
  rw [toList_numbered, List.mem_append] at hc
  rcases hc with hc | hc
  · exact isParamChar_of_mem_placeholderBase hc
  · have hdigit : c.isDigit = true := Nat.isDigit_of_mem_toDigits (by decide) (by decide) hc
    simp [GraphFilter.isParamChar, Char.isAlphanum, hdigit]

theorem toList_ne_nil (h : IsPlaceholder name) : name.toList ≠ [] := by
  rcases h with ⟨field, n, rfl⟩
  rw [toList_numbered]
  exact List.append_ne_nil_of_right_ne_nil _ Nat.toDigits_ne_nil

/-- A placeholder ends in a digit. -/
theorem isDigit_getLast (h : IsPlaceholder name) {c : Char} (hc : name.toList.getLast? = some c) :
    c.isDigit = true := by
  rcases h with ⟨field, n, rfl⟩
  rw [toList_numbered, List.getLast?_append_of_ne_nil _ Nat.toDigits_ne_nil] at hc
  exact Nat.isDigit_of_mem_toDigits (by decide) (by decide) (List.mem_of_getLast? hc)

/-- A parameter whose name does not end in a digit is no placeholder. -/
theorem ne_of_getLast (h : IsPlaceholder name) {other : String} {c : Char}
    (hother : other.toList.getLast? = some c) (hc : c.isDigit = false) : name ≠ other := by
  rintro rfl
  have hdigit := h.isDigit_getLast hother
  rw [hc] at hdigit
  cases hdigit

end IsPlaceholder

namespace NameSupply

/-! ## The search for a free number -/

/-- The search stops at a free number or after all of its steps, and passes only
over numbers that are taken. -/
theorem firstFree_spec (taken : List String) (base : String) (steps start : Nat) :
    (numbered base (firstFree taken base steps start) ∉ taken ∨
        firstFree taken base steps start = start + steps) ∧
      start ≤ firstFree taken base steps start ∧
      ∀ k, start ≤ k → k < firstFree taken base steps start → numbered base k ∈ taken := by
  induction steps generalizing start with
  | zero =>
    refine ⟨Or.inr rfl, Nat.le_refl _, ?_⟩
    intro k hk hlt
    exact absurd hlt (Nat.not_lt_of_ge hk)
  | succ steps ih =>
    by_cases htaken : numbered base start ∈ taken
    · rcases ih (start + 1) with ⟨hstop, hle, hpassed⟩
      have heq : firstFree taken base (steps + 1) start = firstFree taken base steps (start + 1) := by
        simp [firstFree, htaken]
      rw [heq]
      refine ⟨?_, by omega, ?_⟩
      · rcases hstop with hfree | hend
        · exact Or.inl hfree
        · exact Or.inr (by omega)
      · intro k hk hlt
        rcases Nat.eq_or_lt_of_le hk with rfl | hk
        · exact htaken
        · exact hpassed k hk hlt
    · have heq : firstFree taken base (steps + 1) start = start := by
        simp [firstFree, htaken]
      rw [heq]
      refine ⟨Or.inl htaken, Nat.le_refl _, ?_⟩
      intro k hk hlt
      exact absurd hlt (Nat.not_lt_of_ge hk)

/-- There are at least as many taken names as numbers in a row whose names are taken. -/
theorem le_length_of_taken {taken : List String} {base : String} {start n : Nat}
    (h : ∀ k, start ≤ k → k < start + n → numbered base k ∈ taken) : n ≤ taken.length := by
  have hsubset : (List.range' start n).map (numbered base) ⊆ taken := by
    intro name hname
    rcases List.mem_map.mp hname with ⟨k, hk, rfl⟩
    rw [List.mem_range'_1] at hk
    exact h k hk.1 hk.2
  have hnodup : ((List.range' start n).map (numbered base)).Nodup :=
    List.Nodup.map (numbered_injective base) List.nodup_range'
  have hle := (hnodup.subperm hsubset).length_le
  rwa [List.length_map, List.length_range'] at hle

/-- Of one more number than there are taken names, one is free. -/
theorem exists_free (taken : List String) (base : String) (start : Nat) :
    ∃ k, start ≤ k ∧ k ≤ start + taken.length ∧ numbered base k ∉ taken := by
  by_contra hnone
  push Not at hnone
  have hle : taken.length + 1 ≤ taken.length :=
    le_length_of_taken fun k hk hlt => hnone k hk (by omega)
  omega

/-- With as many steps as there are taken names, the search finds a free number. -/
theorem firstFree_not_mem (taken : List String) (base : String) (start : Nat) :
    numbered base (firstFree taken base taken.length start) ∉ taken := by
  rcases firstFree_spec taken base taken.length start with ⟨hstop, -, hpassed⟩
  rcases hstop with hfree | hend
  · exact hfree
  · rcases exists_free taken base start with ⟨k, hk, hle, hfree⟩
    rcases Nat.eq_or_lt_of_le hle with rfl | hlt
    · rw [hend]
      exact hfree
    · exact absurd (hpassed k hk (by omega)) hfree

/-! ## Handing out names -/

/-- The name handed out was not handed out before. -/
theorem next_not_mem_issued (s : NameSupply) (field : String) : (s.next field).1 ∉ s.issued :=
  firstFree_not_mem s.issued (placeholderBase field) (s.count field + 1)

theorem isPlaceholder_next (s : NameSupply) (field : String) : IsPlaceholder (s.next field).1 :=
  ⟨field, _, rfl⟩

/-- Between two states of a supply, some new names were handed out in a row. -/
structure HandsOut (before : NameSupply) (names : List String) (after : NameSupply) : Prop where
  issued : after.issued = names.reverse ++ before.issued
  nodup : names.Nodup
  isNew : ∀ name ∈ names, name ∉ before.issued
  isPlaceholder : ∀ name ∈ names, IsPlaceholder name

theorem HandsOut.refl (s : NameSupply) : HandsOut s [] s :=
  ⟨rfl, List.nodup_nil, by simp, by simp⟩

theorem handsOut_next (s : NameSupply) (field : String) :
    HandsOut s [(s.next field).1] (s.next field).2 := by
  refine ⟨rfl, List.nodup_singleton _, ?_, ?_⟩
  · intro name hname
    rw [List.mem_singleton.mp hname]
    exact next_not_mem_issued s field
  · intro name hname
    rw [List.mem_singleton.mp hname]
    exact isPlaceholder_next s field

/-- The names of two runs in a row differ: the second run knows those of the first. -/
theorem HandsOut.trans {s t u : NameSupply} {names others : List String}
    (hfirst : HandsOut s names t) (hsecond : HandsOut t others u) :
    HandsOut s (names ++ others) u := by
  have hknown : ∀ name, name ∈ names ∨ name ∈ s.issued → name ∈ t.issued := by
    intro name hname
    rw [hfirst.issued, List.mem_append, List.mem_reverse]
    exact hname
  refine ⟨?_, ?_, ?_, ?_⟩
  · rw [hsecond.issued, hfirst.issued, List.reverse_append, List.append_assoc]
  · refine List.Nodup.append hfirst.nodup hsecond.nodup ?_
    intro name hname hother
    exact hsecond.isNew name hother (hknown name (Or.inl hname))
  · intro name hname
    rcases List.mem_append.mp hname with hname | hname
    · exact hfirst.isNew name hname
    · intro hissued
      exact hsecond.isNew name hname (hknown name (Or.inr hissued))
  · intro name hname
    rcases List.mem_append.mp hname with hname | hname
    · exact hfirst.isPlaceholder name hname
    · exact hsecond.isPlaceholder name hname

end NameSupply

end GraphFilter
