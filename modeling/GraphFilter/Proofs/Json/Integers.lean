import GraphFilter.Proofs.Decimal.Numeral
import GraphFilter.Proofs.Json.Naturals

/-!
# Integers in a text

A text that is an integer is read as a number: exactly, if the integer fits 64 bits, and otherwise
as a floating-point number.  That one is computed in two roundings, from the digits that fit and
from the number of those that do not, and still lies beyond the signed range.

Main results:

- Theorem {lit}`NumberText.exists_float_of_value`: integers that do not fit 64 bits.
- Theorem {lit}`parse_eq_ok_iff`: the value of a text that is an integer.
- Theorem {lit}`parse_toString`: integers that are kept exactly.
-/

namespace GraphFilter

open Decimal (Binary64 Numeral)

namespace Json

/-! ## Digits that do not fit -/

/-- Digits are left over only if the next one does not fit. -/
theorem lt_of_takeDigits {limit start significand : Nat} {digits left : List Char}
    (hdigits : ∀ c ∈ digits, c.isDigit = true)
    (h : takeDigits limit start digits = (significand, left)) (hleft : left ≠ []) :
    limit < 10 * significand + 10 := by
  induction digits generalizing start with
  | nil =>
    cases h
    exact absurd rfl hleft
  | cons d digits ih =>
    rw [takeDigits] at h
    split at h
    · exact ih (fun c hc => hdigits c (List.mem_cons_of_mem _ hc)) h
    · rename_i hlimit
      cases h
      have hrange := Decimal.digit_bounds (hdigits d (List.mem_cons_self ..))
      have hzero : '0'.toNat = 48 := rfl
      unfold Decimal.digitValue at hlimit
      omega

/-! ## Scaling -/

/-- A product that is not below a number of the format is not rounded below it. -/
theorem le_magnitude_of_mul {x y z : Binary64} {k : Nat} {e : ℤ} (hk : k < 2 ^ 53)
    (he : -1074 ≤ e) (hle : (k : ℚ) * 2 ^ e ≤ x.magnitude * y.magnitude)
    (h : x.mul y = some z) : (k : ℚ) * 2 ^ e ≤ z.magnitude := by
  refine Binary64.le_magnitude_of_ofRatio (Nat.mul_pos x.den_pos y.den_pos) hk he ?_ h
  rw [← Binary64.num_div_den, ← Binary64.num_div_den] at hle
  rwa [Nat.cast_mul, Nat.cast_mul, ← div_mul_div_comm]

/-- Every power of ten but the first is stored as ten at least. -/
theorem le_magnitude_powerOfTen {exponent : Nat} (hpos : 0 < exponent) (hle : exponent ≤ 308) :
    10 ≤ (powerOfTen exponent).magnitude := by
  have hpower : 10 ≤ 10 ^ exponent := Nat.le_self_pow hpos.ne' 10
  have hgreatest : 10 ^ exponent < (2 ^ 54 - 1) * 2 ^ 970 :=
    (Nat.pow_le_pow_right (by norm_num) hle).trans_lt (by decide +kernel)
  have hratio : Binary64.ofDecimal false 1 exponent = Binary64.ofRatio false (10 ^ exponent) 1 := by
    simp [Binary64.ofDecimal]
  obtain ⟨x, hx⟩ : ∃ x, Binary64.ofRatio false (10 ^ exponent) 1 = some x := by
    rw [Binary64.exists_ofRatio_iff Nat.one_pos, Nat.cast_one, div_one,
      Binary64.overflow_eq_natCast]
    exact_mod_cast hgreatest
  have hbound : ((10 : Nat) : ℚ) * 2 ^ (0 : ℤ) ≤ x.magnitude := by
    refine Binary64.le_magnitude_of_ofRatio Nat.one_pos (by norm_num) (by norm_num) ?_ hx
    rw [Nat.cast_one, div_one, zpow_zero, mul_one]
    exact_mod_cast hpower
  rw [powerOfTen, hratio, hx, Option.getD_some]
  simpa using hbound

/-- A significand of 19 digits or more with a positive exponent is beyond the signed range. -/
theorem exists_float_of_scaledNumber {negative : Bool} {significand : Nat} {exponent : ℤ}
    {num : Number} (hsignificand : 3 * 2 ^ 59 ≤ significand) (hexponent : 0 < exponent)
    (h : scaledNumber negative significand exponent = some num) :
    ∃ x, num = .float x ∧ 2 ^ 63 < x.magnitude := by
  unfold scaledNumber at h
  rw [Option.bind_eq_bind, Option.bind_eq_some_iff] at h
  rcases h with ⟨x, hx, h⟩
  rw [Option.bind_eq_some_iff] at h
  rcases h with ⟨y, hy, h⟩
  cases h
  have hmagnitude : ((3 * 2 ^ 59 : Nat) : ℚ) ≤ x.magnitude :=
    Binary64.le_magnitude_of_ofInt 3 59 (by norm_num) (by omega) hx
  have hscaled : 2 ^ 63 < y.magnitude := by
    unfold scaleByTen at hy
    split at hy
    · -- beyond the greatest power of ten only zero is a number
      have hzero : x.isZero = false := by
        rw [Binary64.isZero, beq_eq_false_iff_ne]
        intro hzero
        rw [Binary64.magnitude, hzero] at hmagnitude
        norm_num at hmagnitude
      simp [hzero] at hy
    · rename_i hhigh
      rw [if_pos hexponent.le] at hy
      have hten : 10 ≤ (powerOfTen exponent.toNat).magnitude :=
        le_magnitude_powerOfTen (by omega) (by omega)
      have hproduct : ((15 : Nat) : ℚ) * 2 ^ (60 : ℤ) ≤
          x.magnitude * (powerOfTen exponent.toNat).magnitude := by
        calc ((15 : Nat) : ℚ) * 2 ^ (60 : ℤ) = ((3 * 2 ^ 59 : Nat) : ℚ) * 10 := by norm_num
          _ ≤ x.magnitude * (powerOfTen exponent.toNat).magnitude :=
            mul_le_mul hmagnitude hten (by norm_num) x.magnitude_nonneg
      refine lt_of_lt_of_le ?_ (le_magnitude_of_mul (by norm_num) (by norm_num) hproduct hy)
      norm_num
  refine ⟨_, rfl, ?_⟩
  split <;> exact hscaled

/-! ## Numbers without a fraction or an exponent -/

/-- The digits of an integer of 64 bits are taken as they are. -/
theorem NumberText.value_of_le {negative : Bool} {whole : List Char}
    (h : Decimal.digitsValue whole ≤ greatestSignificand) :
    value ⟨negative, whole, none, none⟩ = integerNumber negative (Decimal.digitsValue whole) := by
  have hall := (takeDigits_eq_iff (Nat.zero_le greatestSignificand)).mpr ⟨rfl, h⟩
  simp [value, hall, Decimal.digitsValue]

/-- Longer integers become floating-point numbers beyond the signed range, if they are numbers
at all. -/
theorem NumberText.exists_float_of_value {negative : Bool} {whole : List Char} {num : Number}
    (hdigits : ∀ c ∈ whole, c.isDigit = true)
    (hlarge : greatestSignificand < Decimal.digitsValue whole)
    (h : value ⟨negative, whole, none, none⟩ = some num) :
    ∃ x, num = .float x ∧ 2 ^ 63 < x.magnitude := by
  rcases htaken : takeDigits greatestSignificand 0 whole with ⟨significand, left⟩
  have hleft : left ≠ [] := by
    rintro rfl
    have hvalue := (takeDigits_eq_iff (Nat.zero_le _)).mp htaken
    rw [Decimal.digitsValue, hvalue.1] at hlarge
    exact absurd hvalue.2 (not_le.mpr hlarge)
  have hnext := lt_of_takeDigits hdigits htaken hleft
  have hlength : 0 < left.length := List.length_pos_iff.mpr hleft
  simp [value, htaken, hleft, takeDigits] at h
  refine exists_float_of_scaledNumber ?_ (by omega) h
  unfold greatestSignificand at hnext
  omega

/-! ## Reading -/

/-- Whether JSON has the numeral: there is no plus sign, and a zero in front stands alone. -/
structure IsInteger (l : Numeral) : Prop where
  sign : l.sign ≠ .plus
  zero : l.digits.head? = some '0' → l.digits = ['0']

/-- JSON has every integer as it is printed. -/
theorem isInteger_ofInt (n : ℤ) : IsInteger (.ofInt n) where
  sign := by
    by_cases hn : n < 0 <;> simp [Numeral.ofInt, hn]
  zero hzero := by
    rcases Nat.eq_zero_or_pos n.natAbs with h | h
    · simp [Numeral.ofInt, h]
    · exact absurd hzero (Numeral.head_toDigits h)

namespace Cursor

/-- Spaces are passed over up to the next other character. -/
theorem rest_skipSpace_of_spaces {c : Cursor} {before rest : List Char}
    (h : c.rest = before ++ rest) (hbefore : ∀ ch ∈ before, isSpace ch = true)
    (hrest : ∀ ch ∈ rest.head?, isSpace ch = false) :
    c.skipSpace.rest = rest := by
  rcases c with ⟨_, position⟩
  cases h
  change (skipFrom position (before ++ rest)).rest = rest
  induction before generalizing position with
  | nil =>
    cases rest with
    | nil => rfl
    | cons ch rest =>
      have hspace : isSpace ch = false := hrest ch rfl
      simp [skipFrom, hspace]
  | cons ch before ih =>
    rw [List.forall_mem_cons] at hbefore
    rw [List.cons_append, skipFrom, if_pos hbefore.1]
    exact ih hbefore.2 _

end Cursor

/-- A space is no part of a number. -/
theorem of_isSpace {ch : Char} (h : Cursor.isSpace ch = true) :
    ch.isDigit = false ∧ ch ≠ '.' ∧ isExponentMark ch = false := by
  simp only [Cursor.isSpace, Bool.or_eq_true, beq_iff_eq] at h
  rcases h with ((rfl | rfl) | rfl) | rfl <;> decide

theorem toOption_eq_some_iff {ε α : Type} {x : Except ε α} {a : α} :
    x.toOption = some a ↔ x = .ok a := by
  cases x <;> simp [Except.toOption]

section
variable {c : Cursor} {behind : List Char} (hbehind : ∀ ch ∈ behind, Cursor.isSpace ch = true)
include hbehind

/-- The digits of an integer are read as they are written. -/
theorem exists_readWhole {digits : List Char} (hrest : c.rest = digits ++ behind)
    (hne : digits ≠ []) (hdigits : ∀ ch ∈ digits, ch.isDigit = true)
    (hzero : digits.head? = some '0' → digits = ['0']) :
    ∃ c', readWhole c = .ok (digits, c') ∧ c'.rest = behind := by
  rcases List.exists_cons_of_ne_nil hne with ⟨d, more, rfl⟩
  rw [List.cons_append] at hrest
  by_cases hd : d = '0'
  · subst hd
    cases hzero rfl
    have hnext : c.next.rest = behind := by
      simp [Cursor.next, hrest]
    refine ⟨c.next, ?_, hnext⟩
    unfold readWhole
    simp only [hrest, hnext, List.nil_append]
    cases behind with
    | nil => rfl
    | cons ch behind =>
      have hdigit := (of_isSpace (hbehind ch (List.mem_cons_self ..))).1
      simp [hdigit]
  · have hdigit : d.isDigit = true := hdigits d (List.mem_cons_self ..)
    have htaken : c.rest.takeWhile Char.isDigit = d :: more := by
      have hstop : behind.takeWhile Char.isDigit = [] := by
        cases behind with
        | nil => rfl
        | cons ch behind =>
          have hspace := (of_isSpace (hbehind ch (List.mem_cons_self ..))).1
          simp [hspace]
      rw [hrest, ← List.cons_append, List.takeWhile_append_of_pos hdigits, hstop, List.append_nil]
    refine ⟨(readDigits c).2, ?_, ?_⟩
    · unfold readWhole
      split
      · rename_i heq
        simp [hrest] at heq
      · rename_i heq
        simp [hrest, hd] at heq
      · rename_i d' _ _ heq
        cases hrest.symm.trans heq
        rw [if_pos hdigit, readDigits, htaken]
    · rw [readDigits, htaken, Cursor.rest_skip, hrest, ← List.cons_append, List.drop_left]

/-- Neither a fraction nor an exponent follows. -/
theorem readFraction_of_spaces (hrest : c.rest = behind) :
    readFraction c = .ok (none, c) ∧ readExponent c = .ok (none, c) := by
  unfold readFraction readExponent
  cases behind with
  | nil => simp [hrest]
  | cons ch behind =>
    have hspace := of_isSpace (hbehind ch (List.mem_cons_self ..))
    simp [hrest, hspace]

/-- An integer without its sign is read as its digits. -/
theorem exists_readUnsigned {l : Numeral} (hl : IsInteger l) (hrest : c.rest = l.digits ++ behind) :
    ∃ c', c'.rest = behind ∧ readWhole c = .ok (l.digits, c') ∧
      readFraction c' = .ok (none, c') ∧ readExponent c' = .ok (none, c') := by
  rcases exists_readWhole hbehind hrest l.digits_ne l.isDigit hl.zero with ⟨c', hwhole, hrest'⟩
  exact ⟨c', hrest', hwhole, readFraction_of_spaces hbehind hrest'⟩

/-- The number that is read at an integer. -/
theorem exists_toOption_readNumber {l : Numeral} (hl : IsInteger l)
    (hrest : c.rest = l.text ++ behind) : ∃ c', c'.rest = behind ∧ (readNumber c).toOption =
      (NumberText.value ⟨l.isMinus, l.digits, none, none⟩).map (·, c') := by
  rcases l.exists_digits_eq with ⟨d, more, hfirst, hdigit⟩
  unfold Numeral.text at hrest
  unfold readNumber
  split
  rename_i minus c₀ hstart
  have hsign : minus = l.isMinus ∧ c₀.rest = l.digits ++ behind := by
    unfold Numeral.isMinus
    cases hs : l.sign with
    | absent =>
      have hminus : d ≠ '-' := Decimal.ne_of_isDigit hdigit (by decide)
      rw [hs] at hrest
      have hplain : (false, c) = (minus, c₀) := by
        rw [← hstart, hrest, hfirst]
        simp [Decimal.Sign.text, hminus]
      cases hplain
      exact ⟨rfl, hrest⟩
    | plus => exact absurd hs hl.sign
    | minus =>
      rw [hs] at hrest
      have hplain : (true, c.next) = (minus, c₀) := by
        rw [← hstart, hrest]
        rfl
      cases hplain
      exact ⟨rfl, by simp [Cursor.next, hrest, Decimal.Sign.text]⟩
  rcases hsign with ⟨rfl, hrest₀⟩
  rcases exists_readUnsigned hbehind hl hrest₀ with ⟨c', hrest', hwhole, hfraction, hexponent⟩
  refine ⟨c', hrest', ?_⟩
  simp only [hwhole, hfraction, hexponent, bind, Except.bind, NumberText.fatalDigits?]
  cases NumberText.value ⟨l.isMinus, l.digits, none, none⟩ <;> rfl

end

/-- A number begins with neither a space nor a bracket. -/
theorem exists_text_eq {l : Numeral} (hl : IsInteger l) : ∃ ch rest, l.text = ch :: rest ∧
    Cursor.isSpace ch = false ∧ ch ≠ '[' ∧ ch ≠ '\x7b' := by
  unfold Numeral.text
  cases hs : l.sign with
  | absent =>
    rcases l.exists_digits_eq with ⟨d, more, hfirst, hdigit⟩
    refine ⟨d, more, hfirst, ?_, Decimal.ne_of_isDigit hdigit (by decide),
      Decimal.ne_of_isDigit hdigit (by decide)⟩
    by_contra hspace
    rw [(of_isSpace (Bool.not_eq_false _ ▸ hspace)).1] at hdigit
    cases hdigit
  | plus => exact absurd hs hl.sign
  | minus => exact ⟨'-', l.digits, rfl, by decide⟩

/-- An integer is read as a number. -/
theorem readScalar_of_numeral {l : Numeral} (hl : IsInteger l) {c : Cursor} {behind : List Char}
    (hrest : c.rest = l.text ++ behind) :
    readScalar c = (readNumber c).map fun (n, c) => (.number n, c) := by
  rcases l.exists_digits_eq with ⟨d, more, hfirst, hdigit⟩
  unfold Numeral.text at hrest
  cases hs : l.sign with
  | absent =>
    rw [hs, hfirst] at hrest
    exact readScalar_of_isDigit hrest hdigit
  | plus => exact absurd hs hl.sign
  | minus =>
    rw [hs] at hrest
    unfold readScalar
    rw [hrest]
    rfl

/-- A value that is neither an array nor an object is read as a scalar. -/
theorem readValue_of_not_opens {depth : Nat} {c : Cursor} (h : c.skipSpace.opens = false) :
    readValue depth c = readScalar c.skipSpace := by
  unfold Cursor.opens at h
  cases depth with
  | zero =>
    rw [readValue]
    exact if_neg (by simpa [Cursor.opens] using h)
  | succ depth =>
    rw [readValue]
    dsimp only
    split
    · rename_i heq
      simp [heq] at h
    · rename_i heq
      simp [heq] at h
    · rfl

/-- The value of a text that is an integer. -/
theorem parse_eq_ok_iff {l : Numeral} (hl : IsInteger l) {text : String}
    (htext : l.StandsIn Cursor.isSpace text.toList) {v : Value} : parse text = .ok v ↔
      ∃ num, NumberText.value ⟨l.isMinus, l.digits, none, none⟩ = some num ∧ v = .number num := by
  rcases htext with ⟨before, behind, htext, hbefore, hbehind⟩
  rcases exists_text_eq hl with ⟨first, more, hfirst, hspace, hbrackets⟩
  have hstart : (Cursor.start text).rest = before ++ (l.text ++ behind) := by
    rw [← List.append_assoc]
    exact htext
  have hrest : (Cursor.start text).skipSpace.rest = l.text ++ behind :=
    Cursor.rest_skipSpace_of_spaces hstart hbefore (by simpa [hfirst] using hspace)
  have hopens : (Cursor.start text).skipSpace.opens = false := by
    simp [Cursor.opens, hrest, hfirst, hbrackets]
  rcases exists_toOption_readNumber hbehind hl hrest with ⟨c', hrest', hread⟩
  have hend : c'.skipSpace.rest = [] := by
    rw [← List.append_nil behind] at hrest'
    exact Cursor.rest_skipSpace_of_spaces hrest' hbehind (by simp)
  rw [parse, readWhole?_eq_ok, readValue_of_not_opens hopens, readScalar_of_numeral hl hrest]
  constructor
  · rintro ⟨c, h, -⟩
    rcases exists_of_map_eq_ok h with ⟨⟨num, c''⟩, hnum, heq⟩
    rw [← toOption_eq_some_iff, hread, Option.map_eq_some_iff] at hnum
    rcases hnum with ⟨num', hvalue, heq'⟩
    cases heq'
    cases heq
    exact ⟨num, hvalue, rfl⟩
  · rintro ⟨num, hvalue, rfl⟩
    rw [hvalue, Option.map_some, toOption_eq_some_iff] at hread
    exact ⟨c', by rw [hread]; rfl, List.isEmpty_iff.mpr hend⟩

/-- An integer that JSON keeps is read as it is printed. -/
theorem parse_toString {n : ℤ} (h : KeepsInteger n) :
    parse (toString n) = .ok (.number (.int n h)) := by
  have hmagnitude : (Numeral.ofInt n).magnitude = n.natAbs := by
    rw [← Numeral.natAbs_value, Numeral.value_ofInt]
  refine (parse_eq_ok_iff (isInteger_ofInt n) (Numeral.standsIn_ofInt _ n)).mpr ⟨_, ?_, rfl⟩
  rw [NumberText.value_of_le, Numeral.digitsValue_digits, hmagnitude]
  · by_cases hn : n < 0
    · have hne : n ≠ 0 := by omega
      simp [integerNumber, Numeral.isMinus, Numeral.ofInt, hn, abs_of_neg hn, hne, h]
    · have habs : |n| = n := abs_of_nonneg (not_lt.mp hn)
      simp [integerNumber, Numeral.isMinus, Numeral.ofInt, hn, habs, h]
  · rw [Numeral.digitsValue_digits, hmagnitude]
    unfold KeepsInteger at h
    unfold greatestSignificand
    omega

end Json

end GraphFilter
