import GraphFilter.Proofs.Json.Integers
import GraphFilter.Proofs.Param.Whole

/-!
# Integers as numbers and as texts

An integer reaches a parameter in one of two ways: as a JSON number, which is stored first, or as
a string, which is read when it is compared.  Both give the same parameter, as far as JSON stores
integers of 64 bits exactly; longer ones lose digits on one way but not on the other, and become
floating-point numbers on both.

Main results:

- Theorem {lit}`exists_parse_of_le`: the parameter for the JSON text of an integer of 64 bits.
- Theorem {lit}`ofNumericText?_of_standsIn`: the parameter for a string that spells an integer.
- Theorem {lit}`numeric?_of_spelling`: number and string have the same parameter.
- Theorem {lit}`becomes_int_iff`: the integer parameters that written integers become.
-/

namespace GraphFilter.Param

open Decimal (Binary64 Numeral)

/-! ## Numbers -/

/-- The parameter for an integer of 64 bits is the one for its sign and digits. -/
theorem ofNumber_integerNumber {minus : Bool} {m : Nat} (h : m ≤ Json.greatestSignificand) :
    (Json.integerNumber minus m).map ofNumber = ofWhole? (if minus then -(m : ℤ) else m) := by
  unfold Json.greatestSignificand at h
  unfold Json.integerNumber
  cases minus with
  | false =>
    have hkeeps : Json.KeepsInteger m := by
      unfold Json.KeepsInteger
      omega
    simp [hkeeps, ofWhole?_of_keepsInteger hkeeps, ofNumber]
  | true =>
    by_cases hzero : m = 0
    · -- negative zero is kept as a floating-point number
      simp [hzero, ofNumber, ofFloat_zero]
      rfl
    · by_cases hkeeps : Json.KeepsInteger (-(m : ℤ))
      · simp [hzero, hkeeps, ofWhole?_of_keepsInteger hkeeps, ofNumber]
      · have hholds : ¬HoldsInteger (-(m : ℤ)) := by
          unfold HoldsInteger
          unfold Json.KeepsInteger at hkeeps
          omega
        simp [hzero, hkeeps, ofWhole?, hholds]
        rfl

section
variable {l : Numeral} (hl : Json.IsInteger l) {text : String}
  (htext : l.StandsIn Json.Cursor.isSpace text.toList)
include hl htext

/-- The JSON text of an integer of 64 bits is a number, and this is its parameter. -/
theorem exists_parse_of_le (hle : l.magnitude ≤ Json.greatestSignificand) :
    ∃ num, Json.parse text = .ok (.number num) ∧ ofWhole? l.value = some (ofNumber num) := by
  have hsize : l.value.natAbs < 2 ^ 64 := by
    rw [l.natAbs_value]
    exact Nat.lt_of_le_of_lt hle (by decide)
  rcases exists_ofWhole? hsize with ⟨p, hp⟩
  have hparam : (Json.integerNumber l.isMinus l.magnitude).map ofNumber = ofWhole? l.value :=
    ofNumber_integerNumber hle
  rw [hp, Option.map_eq_some_iff] at hparam
  rcases hparam with ⟨num, hnum, rfl⟩
  refine ⟨num, (Json.parse_eq_ok_iff hl htext).mpr ⟨num, ?_, rfl⟩, hp⟩
  rw [Json.NumberText.value_of_le hle]
  exact hnum

/-- Longer integers are no integer parameters. -/
theorem ofNumber_ne_int {v : Json.Value} (hlarge : Json.greatestSignificand < l.magnitude)
    (h : Json.parse text = .ok v) : ∃ num, v = .number num ∧ ∀ i, ofNumber num ≠ int i := by
  rcases (Json.parse_eq_ok_iff hl htext).mp h with ⟨num, hvalue, rfl⟩
  rcases Json.NumberText.exists_float_of_value l.isDigit hlarge hvalue with ⟨x, rfl, hx⟩
  refine ⟨.float x, rfl, ?_⟩
  intro i hi
  exact value_ne_of_lt_magnitude hx i (ofFloat_eq_int_iff.mp hi)

end

/-! ## Texts -/

/-- The parameter for a string that spells an integer. -/
theorem ofNumericText?_of_standsIn {l : Numeral} {s : String}
    (h : l.StandsIn Text.isBlank s.toList) : ofNumericText? s = ofWhole? l.value := by
  rw [ofNumericText?, Numeral.trim_of_standsIn h, l.readInteger?_text, l.readLiteral?_text]
  dsimp only
  by_cases hn : HoldsInteger l.value
  · rw [if_pos hn, ofWhole?_of_holds hn]
  · have hzero : l.value ≠ 0 := by
      intro hzero
      rw [hzero] at hn
      exact hn (by decide)
    rw [if_neg hn, Option.bind_some, Numeral.nearest_literal hzero, ofWhole?, if_neg hn]

/-! ## One integer, as a number and as a text -/

/-- Whether a JSON number is what a JSON text of an integer is read as. -/
def IsRead (n : ℤ) (num : Json.Number) : Prop :=
  ∃ (l : Numeral) (text : String), Json.IsInteger l ∧ l.value = n ∧
    l.StandsIn Json.Cursor.isSpace text.toList ∧ Json.parse text = .ok (.number num)

/-- Whether a string is a spelling of an integer, with blanks around it or not. -/
def IsSpelled (n : ℤ) (s : String) : Prop :=
  ∃ l : Numeral, l.value = n ∧ l.StandsIn Text.isBlank s.toList

/-- What JSON keeps exactly is what a text of it is read as. -/
theorem isRead_int {n : ℤ} (h : Json.KeepsInteger n) : IsRead n (.int n h) :=
  ⟨.ofInt n, toString n, Json.isInteger_ofInt n, Numeral.value_ofInt n,
    Numeral.standsIn_ofInt _ n, Json.parse_toString h⟩

section
variable {n : ℤ} (hn : n.natAbs < 2 ^ 64)
include hn

/-- Every JSON text of an integer of 64 bits is read as a number. -/
theorem exists_parse {l : Numeral} (hl : Json.IsInteger l) (hvalue : l.value = n) {text : String}
    (htext : l.StandsIn Json.Cursor.isSpace text.toList) :
    ∃ num, Json.parse text = .ok (.number num) ∧ ofWhole? n = some (ofNumber num) := by
  have hle : l.magnitude ≤ Json.greatestSignificand := by
    rw [← l.natAbs_value, hvalue]
    exact Nat.le_of_lt_succ hn
  rcases exists_parse_of_le hl htext hle with ⟨num, hparse, hparam⟩
  exact ⟨num, hparse, hvalue ▸ hparam⟩

/-- The number and the string have the same parameter. -/
theorem numeric?_of_spelling {num : Json.Number} {s : String} (hnum : IsRead n num)
    (hs : IsSpelled n s) :
    numeric? (.number num) = ofWhole? n ∧ numeric? (.string s) = ofWhole? n := by
  rcases hnum with ⟨l, text, hl, hvalue, htext, hparse⟩
  rcases exists_parse hn hl hvalue htext with ⟨num', hparse', hparam⟩
  cases hparse.symm.trans hparse'
  rcases hs with ⟨l', hvalue', hs⟩
  rw [hparam, numeric?, numeric?, ofNumericText?_of_standsIn hs, hvalue', hparam]
  exact ⟨rfl, rfl⟩

end

/-! ## Integer parameters -/

/-- No integer of more than 64 bits is rounded into the signed range. -/
theorem not_becomesInteger {l : Numeral} (h : Json.greatestSignificand < l.magnitude) (i : Int64) :
    ¬BecomesInteger l.value i := by
  have hi := holdsInteger_toInt i
  rw [← l.natAbs_value] at h
  unfold Json.greatestSignificand at h
  unfold HoldsInteger at hi
  unfold BecomesInteger RoundsIntoRange
  omega

/-- A written integer, as a JSON number or in a string, becomes an integer parameter only if that
is the integer itself or if it is rounded up to the lower end of the signed range. -/
theorem becomes_int_iff (l : Numeral) (i : Int64) :
    (∀ (text : String) (v : Json.Value), Json.IsInteger l →
      l.StandsIn Json.Cursor.isSpace text.toList → Json.parse text = .ok v →
        (ofJson v = int i ↔ BecomesInteger l.value i) ∧
        (numeric? v = some (int i) ↔ BecomesInteger l.value i)) ∧
    ∀ s : String, l.StandsIn Text.isBlank s.toList →
      (numeric? (.string s) = some (int i) ↔ BecomesInteger l.value i) := by
  constructor
  · intro text v hl htext hparse
    by_cases hle : l.magnitude ≤ Json.greatestSignificand
    · rcases exists_parse_of_le hl htext hle with ⟨num, hnum, hparam⟩
      cases hparse.symm.trans hnum
      rw [ofJson, numeric?, ← hparam, ofWhole?_eq_int_iff, ← Option.some.injEq (ofNumber num),
        ← hparam, ofWhole?_eq_int_iff]
      exact ⟨Iff.rfl, Iff.rfl⟩
    · rw [not_le] at hle
      rcases ofNumber_ne_int hl htext hle hparse with ⟨num, rfl, hne⟩
      have hnot := not_becomesInteger hle i
      rw [ofJson, numeric?, Option.some.injEq]
      exact ⟨iff_of_false (hne i) hnot, iff_of_false (hne i) hnot⟩
  · intro s hs
    rw [numeric?, ofNumericText?_of_standsIn hs, ofWhole?_eq_int_iff]

/-- The greatest integer below the signed range becomes the least one in it, as a number and in a
string. -/
theorem int_of_below_range : ∃ (l : Numeral) (v : Json.Value),
    l.text = "-9223372036854775809".toList ∧ l.value = -9223372036854775809 ∧
      Json.parse "-9223372036854775809" = .ok v ∧ ofJson v = int Int64.minValue ∧
      numeric? v = some (int Int64.minValue) ∧
      numeric? (.string "-9223372036854775809") = some (int Int64.minValue) ∧
      Int64.minValue.toInt = -9223372036854775808 := by
  let l : Numeral :=
    ⟨.minus, "9223372036854775809".toList, by decide, List.all_eq_true.mp (by decide)⟩
  have hl : Json.IsInteger l := ⟨by decide, by decide⟩
  have hvalue : l.value = -9223372036854775809 := by decide
  have hbecomes : ofWhole? l.value = some (int Int64.minValue) := by
    rw [hvalue, ofWhole?_eq_int_iff]
    exact .inr (by decide)
  have hstands (blank : Char → Bool) : l.StandsIn blank "-9223372036854775809".toList :=
    ⟨[], [], by decide, by simp, by simp⟩
  rcases exists_parse_of_le hl (hstands _) (by decide) with ⟨num, hparse, hnum⟩
  have hint : ofNumber num = int Int64.minValue := Option.some.inj (hnum.symm.trans hbecomes)
  refine ⟨l, .number num, by decide, hvalue, hparse, hint, congrArg some hint, ?_, by decide⟩
  rw [numeric?, ofNumericText?_of_standsIn (hstands _), hbecomes]

end GraphFilter.Param
