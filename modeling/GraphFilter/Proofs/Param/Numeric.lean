import GraphFilter.Proofs.Decimal.Written
import GraphFilter.Proofs.Param.Normal

/-!
# Operands that denote numbers

An operand of an ordering is a JSON number or a string.  A string is taken if it spells a finite
number: a decimal number that does not overflow, with blanks around it or not.  The words for
infinities and for what is no number spell none.

Main results:

- Theorem {lit}`exists_ofNumericText?_iff`: the strings that are taken as numbers.
- Theorem {lit}`exists_numeric?_iff`: the operands that are.
- Theorem {lit}`isNumber_of_numeric?`: what they are converted to.
-/

namespace GraphFilter

open Decimal (Binary64 Literal Written readInteger? readLiteral?)

/-- Whether a string is a decimal number that does not overflow, with blanks around it or not. -/
def SpellsNumber (s : String) : Prop :=
  ∃ d : Written, Text.TrimsTo s.toList d.text ∧ |d.value| < Binary64.overflow

namespace Param

/-- Whether a parameter is an integer or a floating-point number.  The latter is finite, as all
numbers of the format are. -/
def IsNumber (p : Param) : Prop :=
  (∃ i, p = int i) ∨ ∃ x, p = float x

theorem isNumber_ofFloat (x : Binary64) : IsNumber (ofFloat x) := by
  by_cases h : ∃ i : Int64, x.value = i.toInt
  · rcases h with ⟨i, hi⟩
    exact .inl ⟨i, ofFloat_eq_int_iff.mpr hi⟩
  · rw [not_exists] at h
    exact .inr ⟨x, ofFloat_eq_float h⟩

theorem isNumber_ofNumber (num : Json.Number) : IsNumber (ofNumber num) := by
  rcases cases_ofNumber num with ⟨i, -, heq⟩ | ⟨-, x, -, heq, -⟩
  · exact .inl ⟨i, heq⟩
  · exact .inr ⟨x, heq⟩

/-! ## Strings -/

/-- A string spells a number exactly if it is read as a literal that is rounded to one. -/
theorem spellsNumber_iff {s : String} : SpellsNumber s ↔
    ∃ l, readLiteral? (Text.trim s.toList) = some l ∧ ∃ x, l.nearest = some x := by
  constructor
  · rintro ⟨d, htrims, hless⟩
    refine ⟨d.literal, ?_, d.literal.exists_nearest_iff.mpr hless⟩
    exact Decimal.readLiteral?_eq_some_iff.mpr ⟨d, (Text.trim_eq_iff.mpr htrims).symm, rfl⟩
  · rintro ⟨l, hread, hnearest⟩
    rcases Decimal.readLiteral?_eq_some_iff.mp hread with ⟨d, htext, rfl⟩
    exact ⟨d, Text.trim_eq_iff.mp htext.symm, d.literal.exists_nearest_iff.mp hnearest⟩

/-- An integer of the signed range is read as a literal as well, which does not overflow. -/
theorem spellsNumber_of_readInteger? {s : String} {n : ℤ}
    (h : readInteger? (Text.trim s.toList) = some n) (hn : HoldsInteger n) : SpellsNumber s := by
  rcases Decimal.readInteger?_eq_some_iff.mp h with ⟨l, htext, rfl⟩
  have hread : readLiteral? (Text.trim s.toList) = some l.literal := by
    rw [← htext, l.readLiteral?_text]
  refine spellsNumber_iff.mpr ⟨_, hread, (l.literal.exists_nearest_iff).mpr ?_⟩
  have hsize : l.magnitude ≤ 2 ^ 63 := by
    rw [← l.natAbs_value]
    unfold HoldsInteger at hn
    omega
  have hmagnitude : l.literal.magnitude = (l.magnitude : ℚ) := by
    simp [Literal.magnitude, Decimal.Numeral.literal]
  rw [Literal.abs_value, hmagnitude]
  calc (l.magnitude : ℚ) ≤ 2 ^ (63 : ℤ) := by exact_mod_cast hsize
    _ < 2 ^ (1023 : ℤ) := zpow_lt_zpow_right₀ (by norm_num) (by norm_num)
    _ ≤ Binary64.overflow := Binary64.two_pow_le_overflow

/-- An integer of the signed range is taken as it is, every other string as a literal. -/
theorem cases_ofNumericText? (s : String) :
    (∃ n i, readInteger? (Text.trim s.toList) = some n ∧ HoldsInteger n ∧
      ofNumericText? s = some (int i)) ∨
    ofNumericText? s =
      (readLiteral? (Text.trim s.toList)).bind fun l => l.nearest.map ofFloat := by
  rw [ofNumericText?]
  cases readInteger? (Text.trim s.toList) with
  | none => exact .inr rfl
  | some n =>
    dsimp only
    by_cases hn : HoldsInteger n
    · rw [if_pos hn]
      exact .inl ⟨n, _, rfl, hn, rfl⟩
    · rw [if_neg hn]
      exact .inr rfl

/-- The strings that are taken as numbers. -/
theorem exists_ofNumericText?_iff {s : String} :
    (∃ p, ofNumericText? s = some p) ↔ SpellsNumber s := by
  rcases cases_ofNumericText? s with ⟨n, i, hinteger, hn, htake⟩ | htake
  · exact iff_of_true ⟨_, htake⟩ (spellsNumber_of_readInteger? hinteger hn)
  · rw [htake, spellsNumber_iff]
    constructor
    · rintro ⟨p, hp⟩
      rcases Option.bind_eq_some_iff.mp hp with ⟨l, hread, hp⟩
      rcases Option.map_eq_some_iff.mp hp with ⟨x, hx, -⟩
      exact ⟨l, hread, x, hx⟩
    · rintro ⟨l, hread, x, hx⟩
      exact ⟨ofFloat x, by rw [hread, Option.bind_some, hx, Option.map_some]⟩

theorem isNumber_of_ofNumericText? {s : String} {p : Param} (h : ofNumericText? s = some p) :
    IsNumber p := by
  rcases cases_ofNumericText? s with ⟨n, i, -, -, htake⟩ | htake
  · exact .inl ⟨i, Option.some.inj (h.symm.trans htake)⟩
  · rw [htake] at h
    rcases Option.bind_eq_some_iff.mp h with ⟨l, -, hp⟩
    rcases Option.map_eq_some_iff.mp hp with ⟨x, -, rfl⟩
    exact isNumber_ofFloat x

/-! ## Operands -/

/-- The operands that are taken as numbers. -/
theorem exists_numeric?_iff {v : Json.Value} : (∃ p, numeric? v = some p) ↔
    (∃ num, v = .number num) ∨ ∃ s, v = .string s ∧ SpellsNumber s := by
  cases v with
  | number num => simp [numeric?]
  | string s => simp [numeric?, ← exists_ofNumericText?_iff]
  | _ => simp [numeric?]

/-- They become integers or finite floating-point numbers. -/
theorem isNumber_of_numeric? {v : Json.Value} {p : Param} (h : numeric? v = some p) :
    IsNumber p := by
  cases v with
  | number num =>
    cases h
    exact isNumber_ofNumber num
  | string s => exact isNumber_of_ofNumericText? h
  | _ => cases h

end Param

end GraphFilter
