import GraphFilter.Param.Value
import GraphFilter.Proofs.Decimal.Rounding

/-!
# Whole numbers among parameters

An integer of 64 bits is kept as it is.  Every other integer is rounded to a floating-point
number first, which is an integer parameter again if it is in the signed range: beyond the upper
end of the range that never happens, while just below the lower end it does.

Main results:

- Theorem {lit}`ofFloat_eq_int_iff`: the floating-point numbers that become integers.
- Theorem {lit}`ofWhole?_eq_int_iff`: the integers that become a given integer parameter.
- Theorem {lit}`ofWhole?_of_keepsInteger`: the parameter for an integer that JSON keeps.
-/

namespace GraphFilter.Param

open Decimal (Binary64)

/-! ## Integers in range -/

theorem holdsInteger_toInt (i : Int64) : HoldsInteger i.toInt :=
  ⟨i.le_toInt, i.toInt_lt⟩

/-- An integer in range is the value of the 64 bits that store it. -/
theorem toInt_ofInt_of_holds {n : ℤ} (h : HoldsInteger n) : (Int64.ofInt n).toInt = n :=
  Int64.toInt_ofInt_of_le h.1 h.2

theorem int_ofInt_eq_iff {n : ℤ} {i : Int64} (h : HoldsInteger n) :
    int (Int64.ofInt n) = int i ↔ i.toInt = n := by
  rw [int.injEq, ← Int64.toInt_inj, toInt_ofInt_of_holds h, eq_comm]

/-! ## Floating-point numbers -/

/-- The floating-point numbers that become integers, with their exact values. -/
theorem ofFloat_eq_int_iff {x : Binary64} {i : Int64} : ofFloat x = int i ↔ x.value = i.toInt := by
  rw [← Binary64.toInt?_eq_some_iff]
  unfold ofFloat
  cases hx : x.toInt? with
  | none => simp
  | some n =>
    dsimp only
    by_cases hn : HoldsInteger n
    · rw [if_pos hn, int_ofInt_eq_iff hn, Option.some.injEq, eq_comm]
    · rw [if_neg hn]
      refine iff_of_false nofun ?_
      intro h
      exact hn (Option.some.inj h ▸ holdsInteger_toInt i)

/-- All others stay as they are. -/
theorem ofFloat_eq_float {x : Binary64} (h : ∀ i : Int64, x.value ≠ i.toInt) :
    ofFloat x = float x := by
  unfold ofFloat
  cases hx : x.toInt? with
  | none => rfl
  | some n =>
    dsimp only
    refine if_neg ?_
    intro hn
    refine h (Int64.ofInt n) ?_
    rw [toInt_ofInt_of_holds hn]
    exact Binary64.toInt?_eq_some_iff.mp hx

/-- Zero is an integer, whatever its sign. -/
theorem ofFloat_zero (negative : Bool) : ofFloat (.zero negative) = int 0 := by
  rw [ofFloat_eq_int_iff]
  simp [Binary64.value, Binary64.magnitude, Binary64.zero]

/-- A number outside the signed range is no integer in it. -/
theorem value_ne_of_lt_magnitude {x : Binary64} (h : 2 ^ 63 < x.magnitude) (i : Int64) :
    x.value ≠ i.toInt := by
  intro hi
  have hlow := i.le_toInt
  have hhigh := i.toInt_lt
  have habs : |i.toInt| ≤ 2 ^ 63 := abs_le.mpr ⟨by omega, by omega⟩
  have hmagnitude : x.magnitude = (|i.toInt| : ℤ) := by
    rw [← Binary64.abs_value, hi, Int.cast_abs]
  have hle : x.magnitude ≤ 2 ^ 63 := by
    rw [hmagnitude]
    exact_mod_cast habs
  exact absurd h (not_lt.mpr hle)

/-! ## Integers beyond the range -/

/-- The integers below the signed range whose nearest floating-point number is the least number
of the range. -/
def RoundsIntoRange (n : ℤ) : Prop :=
  -0x8000000000000400 ≤ n ∧ n < -0x8000000000000000

instance (n : ℤ) : Decidable (RoundsIntoRange n) :=
  inferInstanceAs (Decidable (_ ∧ _))

/-- The magnitudes that are rounded down to the end of the range; a tie is one of them. -/
theorem roundDiv_le_end_iff {m : Nat} :
    Decimal.roundDiv m 2048 ≤ 2 ^ 52 ↔ m ≤ 2 ^ 63 + 1024 := by
  unfold Decimal.roundDiv
  dsimp only
  split
  · omega
  · split
    · omega
    · split <;> omega

/-- An integer beyond the range is rounded to an integer of the range at its lower end only. -/
theorem value_ofInt_eq_iff {n : ℤ} {x : Binary64} (hn : ¬HoldsInteger n)
    (h : Binary64.ofInt n = some x) (i : Int64) :
    x.value = i.toInt ↔ RoundsIntoRange n ∧ i.toInt = -0x8000000000000000 := by
  have hlow : 2 ^ 63 ≤ n.natAbs := by
    unfold HoldsInteger at hn
    omega
  by_cases hhigh : n.natAbs < 2 ^ 64
  · rcases Binary64.exists_ofInt hlow hhigh with ⟨y, hy, hnegative, hmagnitude⟩
    cases h.symm.trans hy
    have hreach : 2 ^ 52 ≤ Decimal.roundDiv n.natAbs 2048 :=
      Decimal.le_roundDiv (by norm_num) (by omega)
    have hend := roundDiv_le_end_iff (m := n.natAbs)
    have hi := holdsInteger_toInt i
    unfold HoldsInteger at hn hi
    unfold RoundsIntoRange
    generalize Decimal.roundDiv n.natAbs 2048 = r at hmagnitude hreach hend
    by_cases hsign : n < 0
    · have hvalue : x.value = ((-(r * 2048) : ℤ) : ℚ) := by
        simp [Binary64.value, hnegative, hmagnitude, hsign]
      rw [hvalue, Int.cast_inj]
      omega
    · have hvalue : x.value = ((r * 2048 : ℤ) : ℚ) := by
        simp [Binary64.value, hnegative, hmagnitude, hsign]
      rw [hvalue, Int.cast_inj]
      omega
  · -- with more than 64 bits the size alone tells
    have hle := Binary64.le_magnitude_of_ofInt 1 64 (by norm_num) (by omega) h
    have hlt : 2 ^ 63 < x.magnitude := lt_of_lt_of_le (by norm_num) hle
    refine iff_of_false (value_ne_of_lt_magnitude hlt i) ?_
    unfold RoundsIntoRange
    omega

/-! ## The parameter for an integer -/

/-- The parameter for a written integer of any size; nothing if it exceeds the format. -/
def ofWhole? (n : ℤ) : Option Param :=
  if HoldsInteger n then some (int (Int64.ofInt n)) else (Binary64.ofInt n).map ofFloat

/-- The integers that become a given integer parameter: the integer itself, and for the least
one those that are rounded to it. -/
def BecomesInteger (n : ℤ) (i : Int64) : Prop :=
  i.toInt = n ∨ RoundsIntoRange n ∧ i.toInt = -0x8000000000000000

theorem ofWhole?_of_holds {n : ℤ} (h : HoldsInteger n) :
    ofWhole? n = some (int (Int64.ofInt n)) :=
  if_pos h

/-- The integers that become a given integer parameter. -/
theorem ofWhole?_eq_int_iff {n : ℤ} {i : Int64} :
    ofWhole? n = some (int i) ↔ BecomesInteger n i := by
  by_cases hn : HoldsInteger n
  · have hout : ¬RoundsIntoRange n := by
      unfold RoundsIntoRange
      unfold HoldsInteger at hn
      omega
    rw [ofWhole?_of_holds hn, Option.some.injEq, int_ofInt_eq_iff hn, BecomesInteger]
    simp [hout]
  · have hne : i.toInt ≠ n := by
      rintro rfl
      exact hn (holdsInteger_toInt i)
    rw [ofWhole?, if_neg hn, Option.map_eq_some_iff, BecomesInteger]
    constructor
    · rintro ⟨x, hx, heq⟩
      exact .inr ((value_ofInt_eq_iff hn hx i).mp (ofFloat_eq_int_iff.mp heq))
    · rintro (heq | hend)
      · exact absurd heq hne
      · have hsize : 2 ^ 63 ≤ n.natAbs ∧ n.natAbs < 2 ^ 64 := by
          unfold RoundsIntoRange at hend
          omega
        rcases Binary64.exists_ofInt hsize.1 hsize.2 with ⟨x, hx, -⟩
        exact ⟨x, hx, ofFloat_eq_int_iff.mpr ((value_ofInt_eq_iff hn hx i).mpr hend)⟩

/-- There is a parameter for every integer of 64 bits, with or without a sign. -/
theorem exists_ofWhole? {n : ℤ} (h : n.natAbs < 2 ^ 64) : ∃ p, ofWhole? n = some p := by
  by_cases hn : HoldsInteger n
  · exact ⟨_, ofWhole?_of_holds hn⟩
  · have hlow : 2 ^ 63 ≤ n.natAbs := by
      unfold HoldsInteger at hn
      omega
    rcases Binary64.exists_ofInt hlow h with ⟨x, hx, -⟩
    exact ⟨ofFloat x, by simp [ofWhole?, hn, hx]⟩

/-- An integer that JSON keeps although it is beyond the range stays beyond it. -/
theorem exists_ofInteger {n : ℤ} (hkeeps : Json.KeepsInteger n) (hn : ¬HoldsInteger n) :
    ∃ x, Binary64.ofInt n = some x ∧ ofInteger n = float x ∧ ∀ i : Int64, x.value ≠ i.toInt := by
  unfold Json.KeepsInteger at hkeeps
  have hout : ¬RoundsIntoRange n := by
    unfold RoundsIntoRange
    omega
  have hsize : 2 ^ 63 ≤ n.natAbs ∧ n.natAbs < 2 ^ 64 := by
    unfold HoldsInteger at hn
    omega
  rcases Binary64.exists_ofInt hsize.1 hsize.2 with ⟨x, hx, -⟩
  refine ⟨x, hx, ?_, fun i hi => hout ((value_ofInt_eq_iff hn hx i).mp hi).1⟩
  simp only [ofInteger, if_neg hn, hx]

/-- The parameter for an integer that JSON keeps. -/
theorem ofWhole?_of_keepsInteger {n : ℤ} (h : Json.KeepsInteger n) :
    ofWhole? n = some (ofInteger n) := by
  by_cases hn : HoldsInteger n
  · rw [ofWhole?_of_holds hn, ofInteger, if_pos hn]
  · rcases exists_ofInteger h hn with ⟨x, hx, hfloat, hne⟩
    rw [ofWhole?, if_neg hn, hx, Option.map_some, ofFloat_eq_float hne, hfloat]

end GraphFilter.Param
