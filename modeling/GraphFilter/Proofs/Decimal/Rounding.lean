import GraphFilter.Decimal.Binary64
import Mathlib.Algebra.Order.Field.Power
import Mathlib.Algebra.Order.Field.Rat
import Mathlib.Tactic.Linarith
import Mathlib.Tactic.NormNum
import Mathlib.Tactic.Positivity
import Mathlib.Tactic.Ring

/-!
# Rounding to the format

A quotient of naturals is rounded on the grid of the significands at its place.  A number of
the format lies on that grid or below all the significands there, so that rounding never takes
a quotient past a number of the format.

Main results:

- Theorem {lit}`Binary64.le_magnitude_of_ofRatio`: a quotient that is not below a number of the
  format is not rounded below it.
- Theorem {lit}`Binary64.exists_ofRatio_iff`: the quotients that are rounded to a number of the
  format.
- Theorem {lit}`Binary64.toInt?_eq_some_iff`: the numbers that are whole.
-/

namespace GraphFilter.Decimal

/-! ## Rounding a quotient -/

/-- Rounding does not take a quotient below an integer. -/
theorem le_roundDiv {k num den : Nat} (hden : 0 < den) (h : k * den ≤ num) :
    k ≤ roundDiv num den := by
  have hquotient : k ≤ num / den := (Nat.le_div_iff_mul_le hden).mpr h
  unfold roundDiv
  dsimp only
  split
  · exact hquotient
  · split
    · omega
    · split <;> omega

/-- Nor does it take a quotient above one. -/
theorem roundDiv_le {k num den : Nat} (hden : 0 < den) (h : num ≤ k * den) :
    roundDiv num den ≤ k := by
  rcases Nat.eq_or_lt_of_le h with heq | hlt
  · rw [heq, roundDiv_of_dvd hden (Nat.dvd_mul_left den k), Nat.mul_div_cancel k hden]
  · have hquotient : num / den < k := (Nat.div_lt_iff_lt_mul hden).mpr hlt
    unfold roundDiv
    dsimp only
    split
    · omega
    · split
      · omega
      · split <;> omega

/-- Rounding stays below an even integer exactly below the half before it. -/
theorem roundDiv_lt_iff {k num den : Nat} (hden : 0 < den) (heven : k % 2 = 0) :
    roundDiv num den < k ↔ 2 * num + den < 2 * k * den := by
  have hdiv : den * (num / den) + num % den = num := Nat.div_add_mod num den
  have hmod : num % den < den := Nat.mod_lt num hden
  rw [Nat.mul_assoc]
  rcases Nat.lt_trichotomy (num / den + 1) k with hlt | heq | hgt
  · have hle : roundDiv num den ≤ num / den + 1 := by
      refine roundDiv_le hden ?_
      rw [Nat.add_mul, Nat.one_mul, Nat.mul_comm]
      omega
    have hmul : (num / den + 2) * den ≤ k * den := Nat.mul_le_mul_right den hlt
    rw [Nat.add_mul, Nat.mul_comm (num / den)] at hmul
    exact iff_of_true (by omega) (by omega)
  · -- the integer below is odd, so that a half goes up
    have hmul : (num / den + 1) * den = k * den := by rw [heq]
    rw [Nat.add_mul, Nat.one_mul, Nat.mul_comm (num / den)] at hmul
    have hhalf : 2 * num + den < 2 * (k * den) ↔ 2 * (num % den) < den := by omega
    rw [hhalf]
    unfold roundDiv
    dsimp only
    split
    · omega
    · split
      · omega
      · split <;> omega
  · have hmul : k * den ≤ num := (Nat.le_div_iff_mul_le hden).mp (by omega)
    exact iff_of_false (not_lt.mpr (le_roundDiv hden hmul)) (by omega)

/-! ## Powers -/

/-- A power of a natural as a quotient of naturals. -/
theorem pow_div (b : Nat) (e : ℤ) :
    ((b ^ e.toNat : Nat) : ℚ) / ((b ^ (-e).toNat : Nat) : ℚ) = (b : ℚ) ^ e := by
  rcases le_total 0 e with h | h
  · rw [Int.toNat_of_nonpos (by omega : -e ≤ 0), pow_zero, Nat.cast_one, div_one, Nat.cast_pow,
      ← zpow_natCast, Int.toNat_of_nonneg h]
  · rw [Int.toNat_of_nonpos h, pow_zero, Nat.cast_one, one_div, Nat.cast_pow, ← zpow_natCast,
      Int.toNat_of_nonneg (by omega), zpow_neg, inv_inv]

theorem two_pow_div (e : ℤ) :
    ((2 ^ e.toNat : Nat) : ℚ) / ((2 ^ (-e).toNat : Nat) : ℚ) = 2 ^ e :=
  pow_div 2 e

/-- Powers of two are ordered by their exponents. -/
theorem two_pow_le {a b : ℤ} (h : a ≤ b) : (2 : ℚ) ^ a ≤ 2 ^ b :=
  zpow_le_zpow_right₀ (by norm_num) h

/-- A power of two on a grid of powers of two. -/
theorem two_pow_mul (n : Nat) (e : ℤ) : ((2 ^ n : Nat) : ℚ) * 2 ^ e = 2 ^ ((n : ℤ) + e) := by
  rw [zpow_add₀ two_ne_zero, zpow_natCast]
  push_cast
  rfl

/-- Comparing a quotient with a power of two. -/
theorem two_pow_le_div_iff {num den : Nat} (hden : 0 < den) (e : ℤ) :
    (2 : ℚ) ^ e ≤ (num : ℚ) / den ↔ den * 2 ^ e.toNat ≤ num * 2 ^ (-e).toNat := by
  have hden' : (0 : ℚ) < den := by exact_mod_cast hden
  rw [← two_pow_div, div_le_div_iff₀ (by positivity) hden']
  norm_cast
  rw [Nat.mul_comm]

namespace Binary64

/-! ## Exact values -/

/-- The number without its sign. -/
def magnitude (x : Binary64) : ℚ :=
  x.significand * 2 ^ x.exponent

/-- The number that is stored. -/
def value (x : Binary64) : ℚ :=
  if x.negative then -x.magnitude else x.magnitude

theorem den_pos (x : Binary64) : 0 < x.den :=
  Nat.two_pow_pos _

theorem magnitude_nonneg (x : Binary64) : 0 ≤ x.magnitude := by
  unfold magnitude
  positivity

/-- The magnitude as a quotient. -/
theorem num_div_den (x : Binary64) : (x.num : ℚ) / x.den = x.magnitude := by
  unfold num den magnitude
  rw [Nat.pow_eq, Nat.pow_eq, Nat.cast_mul, mul_div_assoc, two_pow_div]

/-! ## The place of the last bit -/

theorem neg_le_lastBit (num den : Nat) : -1074 ≤ lastBit num den :=
  le_max_right _ _

/-- The place, told by the power of two that the lengths of the terms suggest. -/
theorem lastBit_eq {num den : Nat} (hden : 0 < den) : lastBit num den =
    max (if (2 : ℚ) ^ ((num.log2 : ℤ) - den.log2) ≤ (num : ℚ) / den then
      (num.log2 : ℤ) - den.log2 - 52 else (num.log2 : ℤ) - den.log2 - 53) (-1074) := by
  have hsum : (num.log2 : ℤ) - den.log2 - 53 + 53 = num.log2 - den.log2 := by
    omega
  unfold lastBit
  simp only [decide_eq_true_eq, Nat.pow_eq, ← two_pow_le_div_iff hden, hsum]
  congr 1
  split <;> omega

section
variable {num den : Nat} (hnum : 0 < num) (hden : 0 < den)
include hnum hden

/-- A quotient lies between powers of two that the lengths of its terms tell. -/
theorem div_bounds : (2 : ℚ) ^ ((num.log2 : ℤ) - den.log2 - 1) ≤ (num : ℚ) / den ∧
    (num : ℚ) / den < 2 ^ ((num.log2 : ℤ) - den.log2 + 1) := by
  have hden' : (0 : ℚ) < den := by exact_mod_cast hden
  have hnum_le : (2 : ℚ) ^ (num.log2 : ℤ) ≤ num := by
    exact_mod_cast Nat.log2_self_le hnum.ne'
  have hnum_lt : (num : ℚ) < 2 ^ ((num.log2 : ℤ) + 1) := by
    exact_mod_cast Nat.lt_log2_self (n := num)
  have hden_le : (2 : ℚ) ^ (den.log2 : ℤ) ≤ den := by
    exact_mod_cast Nat.log2_self_le hden.ne'
  have hden_lt : (den : ℚ) < 2 ^ ((den.log2 : ℤ) + 1) := by
    exact_mod_cast Nat.lt_log2_self (n := den)
  constructor
  · rw [le_div_iff₀ hden']
    calc (2 : ℚ) ^ ((num.log2 : ℤ) - den.log2 - 1) * den
        ≤ 2 ^ ((num.log2 : ℤ) - den.log2 - 1) * 2 ^ ((den.log2 : ℤ) + 1) := by gcongr
      _ = 2 ^ (num.log2 : ℤ) := by
        rw [← zpow_add₀ two_ne_zero]
        congr 1
        ring
      _ ≤ num := hnum_le
  · rw [div_lt_iff₀ hden']
    calc (num : ℚ) < 2 ^ ((num.log2 : ℤ) + 1) := hnum_lt
      _ = 2 ^ ((num.log2 : ℤ) - den.log2 + 1) * 2 ^ (den.log2 : ℤ) := by
        rw [← zpow_add₀ two_ne_zero]
        congr 1
        ring
      _ ≤ 2 ^ ((num.log2 : ℤ) - den.log2 + 1) * den := by gcongr

/-- Unless the place is the least one, the quotient has a significand of 53 bits there. -/
theorem le_div_of_lastBit (h : -1074 < lastBit num den) :
    ((2 ^ 52 : Nat) : ℚ) * 2 ^ lastBit num den ≤ (num : ℚ) / den := by
  rcases div_bounds hnum hden with ⟨hlow, -⟩
  rw [two_pow_mul]
  rw [lastBit_eq hden] at h ⊢
  split at h
  · rename_i hreach
    rw [if_pos hreach]
    refine (two_pow_le ?_).trans hreach
    omega
  · rename_i hreach
    rw [if_neg hreach]
    refine (two_pow_le ?_).trans hlow
    omega

/-- At no place has it a longer one. -/
theorem div_lt_of_lastBit : (num : ℚ) / den < ((2 ^ 53 : Nat) : ℚ) * 2 ^ lastBit num den := by
  rcases div_bounds hnum hden with ⟨-, hhigh⟩
  rw [two_pow_mul, lastBit_eq hden]
  split
  · refine hhigh.trans_le (two_pow_le ?_)
    omega
  · rename_i hreach
    refine (not_le.mp hreach).trans_le (two_pow_le ?_)
    omega

end

/-! ## Significands -/

/-- The significand to which a quotient is rounded at a place. -/
def significandAt (last : ℤ) (num den : Nat) : Nat :=
  roundDiv (num * 2 ^ (-last).toNat) (den * 2 ^ last.toNat)

section
variable {num den k : Nat} {last : ℤ} (hden : 0 < den)
include hden

/-- A significand that the quotient reaches is not lost. -/
theorem le_significandAt (h : (k : ℚ) * 2 ^ last ≤ (num : ℚ) / den) :
    k ≤ significandAt last num den := by
  have hden' : (0 : ℚ) < den := by exact_mod_cast hden
  refine le_roundDiv (by positivity) ?_
  rw [← two_pow_div, ← mul_div_assoc, div_le_div_iff₀ (by positivity) hden'] at h
  norm_cast at h
  rwa [Nat.mul_left_comm, Nat.mul_comm den]

/-- A significand that bounds the quotient is not exceeded. -/
theorem significandAt_le (h : (num : ℚ) / den ≤ k * 2 ^ last) :
    significandAt last num den ≤ k := by
  have hden' : (0 : ℚ) < den := by exact_mod_cast hden
  refine roundDiv_le (by positivity) ?_
  rw [← two_pow_div, ← mul_div_assoc, div_le_div_iff₀ hden' (by positivity)] at h
  norm_cast at h
  rwa [Nat.mul_left_comm, Nat.mul_comm den]

/-- An even significand is reached exactly from the half before it on. -/
theorem significandAt_lt_iff (heven : k % 2 = 0) :
    significandAt last num den < k ↔ (num : ℚ) / den < (2 * k - 1) * 2 ^ (last - 1) := by
  have hden' : (0 : ℚ) < den := by exact_mod_cast hden
  have hhalf : (2 * k - 1) * (2 : ℚ) ^ (last - 1) = (2 * k - 1) / 2 * 2 ^ last := by
    rw [zpow_sub_one₀ two_ne_zero]
    ring
  rw [significandAt, roundDiv_lt_iff (by positivity) heven, hhalf, ← two_pow_div,
    ← mul_div_assoc, div_mul_eq_mul_div, div_div, div_lt_div_iff₀ hden' (by positivity),
    ← Nat.cast_lt (α := ℚ)]
  push_cast
  constructor <;> intro h <;> linarith

end

/-- Unless the place is the least one, the significand has its leading bit. -/
theorem leading_significandAt {num den : Nat} (hnum : 0 < num) (hden : 0 < den) :
    lastBit num den = -1074 ∨ 2 ^ 52 ≤ significandAt (lastBit num den) num den := by
  by_cases hleast : lastBit num den = -1074
  · exact .inl hleast
  · have hlow := neg_le_lastBit num den
    exact .inr (le_significandAt hden (le_div_of_lastBit hnum hden (by omega)))

/-- A quotient other than zero is rounded at the place of its last bit. -/
theorem ofRatio_eq {negative : Bool} {num den : Nat} (hnum : 0 < num) :
    ofRatio negative num den =
      ofParts negative (significandAt (lastBit num den) num den) (lastBit num den) := by
  unfold ofRatio
  rw [if_neg hnum.ne']
  rfl

/-- The number with a significand and an exponent. -/
theorem of_ofParts {negative : Bool} {significand : Nat} {exponent : ℤ} {x : Binary64}
    (h : ofParts negative significand exponent = some x) :
    x.negative = negative ∧ x.magnitude = significand * 2 ^ exponent := by
  unfold ofParts at h
  split at h
  · cases h
    exact ⟨rfl, rfl⟩
  · split at h
    · rename_i hcarry
      cases h
      refine ⟨rfl, ?_⟩
      simp only [magnitude, Nat.pow_eq, hcarry.1, zpow_add₀ (two_ne_zero (α := ℚ))]
      push_cast
      ring
    · cases h

/-- The significands and exponents for which there is a number: at the greatest exponent, rounding
must not have carried. -/
theorem exists_ofParts_iff {negative : Bool} {significand : Nat} {exponent : ℤ}
    (hbits : significand ≤ 2 ^ 53) (hlow : -1074 ≤ exponent)
    (hleading : exponent = -1074 ∨ 2 ^ 52 ≤ significand) :
    (∃ x, ofParts negative significand exponent = some x) ↔
      exponent ≤ 971 ∧ (exponent = 971 → significand < 2 ^ 53) := by
  unfold ofParts
  constructor
  · rintro ⟨x, hx⟩
    split at hx
    · rename_i hcanonical
      exact ⟨hcanonical.2.2.1, fun _ => hcanonical.1⟩
    · split at hx
      · rename_i hcarry
        have hhigh : exponent + 1 ≤ 971 := hcarry.2.2.2.1
        exact ⟨by omega, fun h => by omega⟩
      · cases hx
  · rintro ⟨hhigh, hgreatest⟩
    rcases Nat.lt_or_eq_of_le hbits with hlt | heq
    · rw [dif_pos ⟨hlt, hlow, hhigh, hleading⟩]
      exact ⟨_, rfl⟩
    · have hcarry : Canonical (2 ^ 52) (exponent + 1) :=
        ⟨by decide, by omega, by omega, .inr (le_refl _)⟩
      rw [dif_neg (fun h => absurd h.1 (by simp [heq])), dif_pos ⟨heq, hcarry⟩]
      exact ⟨_, rfl⟩

/-! ## Numbers of the format as bounds -/

/-- A quotient that is not below a number of the format is not rounded below it. -/
theorem le_magnitude_of_ofRatio {negative : Bool} {num den k : Nat} {e : ℤ} {x : Binary64}
    (hden : 0 < den) (hk : k < 2 ^ 53) (he : -1074 ≤ e) (hle : (k : ℚ) * 2 ^ e ≤ (num : ℚ) / den)
    (h : ofRatio negative num den = some x) : (k : ℚ) * 2 ^ e ≤ x.magnitude := by
  by_cases hnum : num = 0
  · refine hle.trans ?_
    rw [hnum]
    simpa using x.magnitude_nonneg
  · have hnum : 0 < num := Nat.pos_of_ne_zero hnum
    rw [ofRatio_eq hnum] at h
    rw [(of_ofParts h).2]
    by_cases hplace : lastBit num den ≤ e
    · -- the number lies on the grid at the last bit
      have hgrid : (k : ℚ) * 2 ^ e =
          ((k * 2 ^ (e - lastBit num den).toNat : Nat) : ℚ) * 2 ^ lastBit num den := by
        push_cast
        rw [mul_assoc, ← zpow_natCast, Int.toNat_of_nonneg (by omega), ← zpow_add₀ two_ne_zero,
          sub_add_cancel]
      rw [hgrid] at hle ⊢
      have hreach := le_significandAt hden hle
      gcongr
    · -- the quotient has more bits than the number
      have hreach := le_significandAt hden (le_div_of_lastBit hnum hden (by omega))
      calc (k : ℚ) * 2 ^ e ≤ ((2 ^ 53 : Nat) : ℚ) * 2 ^ e := by gcongr
        _ ≤ ((2 ^ 52 : Nat) : ℚ) * 2 ^ lastBit num den := by
          rw [two_pow_mul, two_pow_mul]
          exact two_pow_le (by omega)
        _ ≤ significandAt (lastBit num den) num den * 2 ^ lastBit num den := by gcongr

/-! ## The end of the format -/

/-- The least magnitude that is rounded to no number: half a place beyond the greatest number. -/
def overflow : ℚ :=
  (2 ^ 54 - 1) * 2 ^ (970 : ℤ)

theorem overflow_eq_natCast : overflow = (((2 ^ 54 - 1) * 2 ^ 970 : Nat) : ℚ) := by
  rw [overflow, Nat.cast_mul, Nat.cast_pow, Nat.cast_ofNat, zpow_ofNat]
  norm_num

theorem two_pow_le_overflow : (2 : ℚ) ^ (1023 : ℤ) ≤ overflow := by
  have hpow : (2 : ℚ) ^ (1023 : ℤ) = ((2 ^ 53 : Nat) : ℚ) * 2 ^ (970 : ℤ) := by
    rw [two_pow_mul]
    norm_num
  rw [hpow, overflow]
  gcongr
  norm_num

theorem overflow_le_two_pow : overflow ≤ 2 ^ (1024 : ℤ) := by
  have hpow : (2 : ℚ) ^ (1024 : ℤ) = ((2 ^ 54 : Nat) : ℚ) * 2 ^ (970 : ℤ) := by
    rw [two_pow_mul]
    norm_num
  rw [hpow, overflow]
  gcongr
  norm_num

/-- A quotient is rounded to a number of the format exactly if it does not overflow. -/
theorem exists_ofRatio_iff {negative : Bool} {num den : Nat} (hden : 0 < den) :
    (∃ x, ofRatio negative num den = some x) ↔ (num : ℚ) / den < overflow := by
  by_cases hnum : num = 0
  · refine iff_of_true ⟨zero negative, by rw [ofRatio, if_pos hnum]⟩ ?_
    rw [hnum, Nat.cast_zero, zero_div]
    exact lt_of_lt_of_le (by positivity) two_pow_le_overflow
  · have hnum : 0 < num := Nat.pos_of_ne_zero hnum
    rw [ofRatio_eq hnum, exists_ofParts_iff
      (significandAt_le hden (div_lt_of_lastBit hnum hden).le) (neg_le_lastBit num den)
      (leading_significandAt hnum hden)]
    rcases lt_trichotomy (lastBit num den) 971 with hlt | heq | hgt
    · refine iff_of_true ⟨hlt.le, fun h => absurd h hlt.ne⟩ ?_
      calc (num : ℚ) / den < ((2 ^ 53 : Nat) : ℚ) * 2 ^ lastBit num den :=
            div_lt_of_lastBit hnum hden
        _ ≤ 2 ^ (1023 : ℤ) := by
            rw [two_pow_mul]
            exact two_pow_le (by omega)
        _ ≤ overflow := two_pow_le_overflow
    · have hgrid : overflow = (2 * ((2 ^ 53 : Nat) : ℚ) - 1) * 2 ^ ((971 : ℤ) - 1) := by
        unfold overflow
        norm_num
      rw [heq, hgrid, ← significandAt_lt_iff hden (by norm_num)]
      exact ⟨fun h => h.2 rfl, fun h => ⟨le_rfl, fun _ => h⟩⟩
    · refine iff_of_false (fun h => absurd h.1 (not_le.mpr hgt)) (not_lt.mpr ?_)
      calc overflow ≤ 2 ^ (1024 : ℤ) := overflow_le_two_pow
        _ ≤ ((2 ^ 52 : Nat) : ℚ) * 2 ^ lastBit num den := by
            rw [two_pow_mul]
            exact two_pow_le (by omega)
        _ ≤ (num : ℚ) / den := le_div_of_lastBit hnum hden (by omega)

/-- A quotient that is longer than every number is rounded to none. -/
theorem ofRatio_eq_none {negative : Bool} {num den : Nat} (hden : 0 < den)
    (h : (2 : ℚ) ^ (1024 : ℤ) ≤ (num : ℚ) / den) : ofRatio negative num den = none := by
  rw [Option.eq_none_iff_forall_ne_some]
  intro x hx
  have hless := (exists_ofRatio_iff hden).mp ⟨x, hx⟩
  exact absurd (overflow_le_two_pow.trans h) (not_le.mpr hless)

/-! ## Whole numbers -/

/-- The magnitudes that are whole. -/
theorem magnitude_eq_natCast_iff {x : Binary64} {n : Nat} :
    x.magnitude = n ↔ x.num % x.den = 0 ∧ x.num / x.den = n := by
  have hden : (x.den : ℚ) ≠ 0 := by exact_mod_cast x.den_pos.ne'
  rw [← num_div_den, div_eq_iff hden]
  norm_cast
  constructor
  · intro h
    rw [h, Nat.mul_mod_left, Nat.mul_div_cancel n x.den_pos]
    exact ⟨rfl, rfl⟩
  · rintro ⟨hmod, rfl⟩
    exact (Nat.div_mul_cancel (Nat.dvd_of_mod_eq_zero hmod)).symm

/-- The magnitude is the absolute value. -/
theorem abs_value (x : Binary64) : |x.value| = x.magnitude := by
  unfold value
  split
  · rw [abs_neg, abs_of_nonneg x.magnitude_nonneg]
  · exact abs_of_nonneg x.magnitude_nonneg

/-- The numbers that are whole. -/
theorem toInt?_eq_some_iff {x : Binary64} {i : ℤ} : x.toInt? = some i ↔ x.value = i := by
  unfold toInt?
  constructor
  · intro h
    split at h
    · rename_i hmod
      have hmagnitude : x.magnitude = (x.num / x.den : Nat) :=
        magnitude_eq_natCast_iff.mpr ⟨hmod, rfl⟩
      rw [← Option.some.inj h, value, hmagnitude]
      split <;> push_cast <;> rfl
    · cases h
  · intro h
    have hmagnitude : x.magnitude = (i.natAbs : Nat) := by
      rw [← abs_value, h, ← Int.cast_abs, Int.abs_eq_natAbs]
      rfl
    rcases magnitude_eq_natCast_iff.mp hmagnitude with ⟨hmod, hquotient⟩
    rw [value, hmagnitude, ← Int.cast_natCast, ← Int.cast_neg] at h
    rw [if_pos hmod, hquotient]
    dsimp only
    split at h
    · rename_i hnegative
      rw [if_pos hnegative, Int.cast_injective h]
    · rename_i hnegative
      rw [if_neg hnegative, Int.cast_injective h]

/-! ## Integers -/

/-- An integer that is not below a number of the format in size is not rounded below it. -/
theorem le_magnitude_of_ofInt {n : ℤ} {x : Binary64} (k e : Nat) (hk : k < 2 ^ 53)
    (hle : k * 2 ^ e ≤ n.natAbs) (h : ofInt n = some x) :
    ((k * 2 ^ e : Nat) : ℚ) ≤ x.magnitude := by
  have hle' : (k : ℚ) * 2 ^ (e : ℤ) ≤ (n.natAbs : ℚ) / (1 : Nat) := by
    rw [Nat.cast_one, div_one]
    exact_mod_cast hle
  have hbound := le_magnitude_of_ofRatio Nat.one_pos hk (by omega) hle' h
  exact_mod_cast hbound

/-- An integer of 64 bits is rounded to a multiple of 2048. -/
theorem exists_ofInt {n : ℤ} (hlow : 2 ^ 63 ≤ n.natAbs) (hhigh : n.natAbs < 2 ^ 64) :
    ∃ x, ofInt n = some x ∧ x.negative = decide (n < 0) ∧
      x.magnitude = (roundDiv n.natAbs 2048 * 2048 : Nat) := by
  have hlog : n.natAbs.log2 = 63 := (Nat.log2_eq_iff (by omega)).mpr ⟨hlow, hhigh⟩
  have hlast : lastBit n.natAbs 1 = 11 := by
    have hone : Nat.log2 1 = 0 := by decide
    have hreach : 9223372036854775808 ≤ n.natAbs := hlow
    unfold lastBit
    rw [hlog, hone]
    simp [hreach]
  have hsignificand : significandAt 11 n.natAbs 1 = roundDiv n.natAbs 2048 := by
    simp [significandAt]
  have hleading : 2 ^ 52 ≤ roundDiv n.natAbs 2048 := le_roundDiv (by norm_num) (by omega)
  have hbits : roundDiv n.natAbs 2048 ≤ 2 ^ 53 := roundDiv_le (by norm_num) (by omega)
  rw [ofInt, ofRatio_eq (by omega), hlast, hsignificand]
  have hparts : ∃ x, ofParts (n < 0) (roundDiv n.natAbs 2048) 11 = some x :=
    (exists_ofParts_iff hbits (by norm_num) (.inr hleading)).mpr ⟨by norm_num, by norm_num⟩
  rcases hparts with ⟨x, hx⟩
  rcases of_ofParts hx with ⟨hnegative, hmagnitude⟩
  refine ⟨x, hx, hnegative, ?_⟩
  rw [hmagnitude]
  push_cast
  norm_num

end Binary64

end GraphFilter.Decimal
