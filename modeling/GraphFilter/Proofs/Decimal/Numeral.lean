import GraphFilter.Decimal.Literal
import GraphFilter.Proofs.Decimal.Rounding
import GraphFilter.Proofs.Text.Trimmed
import Mathlib.Tactic.IntervalCases

/-!
# Written integers

An integer of any size is written as digits behind an optional sign.  Read as an integer such a
text gives its exact value, and read as a decimal literal the number that is nearest to it.

Main results:

- Theorem {lit}`readInteger?_eq_some_iff`: the texts that are read as integers.
- Theorem {lit}`Numeral.nearest_literal`: read as a literal it is rounded like its value.
-/

namespace GraphFilter.Decimal

/-! ## Signs and digits -/

/-- The code points of digits. -/
theorem digit_bounds {c : Char} (h : c.isDigit = true) : 48 ≤ c.toNat ∧ c.toNat ≤ 57 := by
  simpa [Char.isDigit, UInt32.le_iff_toNat_le] using h

/-- A digit is no other character. -/
theorem ne_of_isDigit {c other : Char} (h : c.isDigit = true) (hother : other.isDigit = false) :
    c ≠ other := by
  rintro rfl
  rw [h] at hother
  cases hother

/-- The texts of digits alone. -/
theorem readNatural?_eq_some_iff {s : List Char} {n : Nat} :
    readNatural? s = some n ↔
      s ≠ [] ∧ (∀ c ∈ s, c.isDigit = true) ∧ digitsValue s = n := by
  simp [readNatural?, List.isEmpty_iff, and_assoc]

/-- What may stand in front of digits. -/
inductive Sign where
  | absent
  | plus
  | minus
deriving DecidableEq

/-- The sign as it is written. -/
def Sign.text : Sign → List Char
  | absent => []
  | plus => ['+']
  | minus => ['-']

/-- Reading a sign splits a text behind it. -/
theorem exists_sign_append (s : List Char) :
    ∃ sign : Sign, s = sign.text ++ (readSign s).2 ∧ (readSign s).1 = (sign == .minus) := by
  unfold readSign
  split
  · exact ⟨.minus, rfl, rfl⟩
  · exact ⟨.plus, rfl, rfl⟩
  · exact ⟨.absent, rfl, rfl⟩

/-- A sign is read where none follows it. -/
theorem readSign_append (sign : Sign) {rest : List Char}
    (hrest : ∀ c ∈ rest.head?, c ≠ '-' ∧ c ≠ '+') :
    readSign (sign.text ++ rest) = (sign == .minus, rest) := by
  cases sign with
  | absent =>
    cases rest with
    | nil => rfl
    | cons c rest =>
      rcases hrest c rfl with ⟨hminus, hplus⟩
      simp [Sign.text, readSign, hminus, hplus]
  | plus => rfl
  | minus => rfl

/-! ## Numerals -/

/-- An integer as it can be written, with any number of zeros in front. -/
structure Numeral where
  sign : Sign
  digits : List Char
  digits_ne : digits ≠ []
  isDigit : ∀ c ∈ digits, c.isDigit = true

namespace Numeral

/-- The characters of the numeral. -/
def text (l : Numeral) : List Char :=
  l.sign.text ++ l.digits

/-- The number that the digits stand for. -/
def magnitude (l : Numeral) : Nat :=
  Nat.ofDigitChars 10 l.digits 0

/-- Whether the numeral has a minus sign. -/
def isMinus (l : Numeral) : Bool :=
  l.sign == .minus

/-- The integer that the numeral denotes. -/
def value (l : Numeral) : ℤ :=
  if l.isMinus then -(l.magnitude : ℤ) else l.magnitude

theorem digitsValue_digits (l : Numeral) : digitsValue l.digits = l.magnitude :=
  rfl

theorem natAbs_value (l : Numeral) : l.value.natAbs = l.magnitude := by
  unfold value
  split <;> simp

/-- The first digit, which there always is. -/
theorem exists_digits_eq (l : Numeral) :
    ∃ d rest, l.digits = d :: rest ∧ d.isDigit = true := by
  rcases List.exists_cons_of_ne_nil l.digits_ne with ⟨d, rest, heq⟩
  exact ⟨d, rest, heq, l.isDigit d (by simp [heq])⟩

/-! ## Integers as they are printed -/

/-- The numeral of an integer as it is printed. -/
def ofInt (n : ℤ) : Numeral where
  sign := if n < 0 then .minus else .absent
  digits := Nat.toDigits 10 n.natAbs
  digits_ne := Nat.toDigits_ne_nil
  isDigit _ hc := Nat.isDigit_of_mem_toDigits (by decide) (by decide) hc

theorem value_ofInt (n : ℤ) : (ofInt n).value = n := by
  have hmagnitude : (ofInt n).magnitude = n.natAbs :=
    Nat.ofDigitChars_toDigits (by decide) (by decide)
  rw [value, hmagnitude]
  by_cases hn : n < 0
  · rw [if_pos (by simp [isMinus, ofInt, hn])]
    omega
  · rw [if_neg (by simp [isMinus, ofInt, hn])]
    omega

theorem text_ofInt (n : ℤ) : (ofInt n).text = (toString n).toList := by
  by_cases hn : n < 0
  · rcases Int.eq_negSucc_of_lt_zero hn with ⟨m, rfl⟩
    simp [text, ofInt, Sign.text, hn, toString, Int.repr]
  · rcases Int.eq_ofNat_of_zero_le (not_lt.mp hn) with ⟨m, rfl⟩
    simp [text, ofInt, Sign.text, hn, toString, Int.repr]

/-- Only zero is printed with a zero in front. -/
theorem head_toDigits {n : Nat} (hn : 0 < n) : (Nat.toDigits 10 n).head? ≠ some '0' := by
  induction n using Nat.strongRecOn with
  | ind n ih =>
    by_cases hlt : n < 10
    · rw [Nat.toDigits_of_lt_base hlt]
      interval_cases n <;> decide
    · rw [Nat.toDigits_of_base_le (by decide) (by omega),
        List.head?_append_of_ne_nil _ Nat.toDigits_ne_nil]
      exact ih (n / 10) (by omega) (by omega)

/-! ## Blanks around a numeral -/

/-- A digit is no blank. -/
theorem isBlank_of_isDigit {c : Char} (h : c.isDigit = true) : Text.isBlank c = false := by
  have hrange := digit_bounds h
  unfold Text.isBlank
  rw [if_pos (by omega), Bool.or_eq_false_iff, Bool.and_eq_false_iff, beq_eq_false_iff_ne,
    decide_eq_false_iff_not, decide_eq_false_iff_not]
  omega

theorem unbroken_text (l : Numeral) : Text.Unbroken l.text := by
  intro c hc
  rcases List.mem_append.mp hc with hsign | hdigit
  · cases hl : l.sign <;> simp [hl, Sign.text] at hsign <;> subst hsign <;> decide
  · exact isBlank_of_isDigit (l.isDigit c hdigit)

/-- Whether a text is the numeral with nothing but characters of one kind around it. -/
def StandsIn (blank : Char → Bool) (l : Numeral) (s : List Char) : Prop :=
  ∃ before behind, s = before ++ l.text ++ behind ∧ (∀ c ∈ before, blank c = true) ∧
    ∀ c ∈ behind, blank c = true

/-- An integer as it is printed has nothing around it. -/
theorem standsIn_ofInt (blank : Char → Bool) (n : ℤ) :
    StandsIn blank (ofInt n) (toString n).toList :=
  ⟨[], [], by simp [text_ofInt], by simp, by simp⟩

/-- What is left of the text without the blanks around it. -/
theorem trim_of_standsIn {l : Numeral} {s : List Char} (h : StandsIn Text.isBlank l s) :
    Text.trim s = l.text :=
  Text.trim_of_trimsTo ⟨l.unbroken_text.bare, h⟩

/-! ## Reading -/

theorem readSign_text (l : Numeral) : readSign l.text = (l.isMinus, l.digits) := by
  rcases l.exists_digits_eq with ⟨d, rest, heq, hdigit⟩
  refine readSign_append l.sign ?_
  intro c hc
  rw [heq] at hc
  cases hc
  exact ⟨ne_of_isDigit hdigit (by decide), ne_of_isDigit hdigit (by decide)⟩

/-- A written integer is read as its value. -/
theorem readInteger?_text (l : Numeral) : readInteger? l.text = some l.value := by
  have hnatural : readNatural? l.digits = some l.magnitude :=
    readNatural?_eq_some_iff.mpr ⟨l.digits_ne, l.isDigit, l.digitsValue_digits⟩
  rw [readInteger?, readSign_text]
  dsimp only
  rw [hnatural]
  rfl

/-- The literal that is read. -/
def literal (l : Numeral) : Literal :=
  ⟨l.isMinus, l.magnitude, 0⟩

theorem readLiteral?_text (l : Numeral) : readLiteral? l.text = some l.literal := by
  have hsplit : splitDigits l.digits = (l.digits, []) := by
    rw [splitDigits, List.takeWhile_eq_self_iff.mpr l.isDigit,
      List.dropWhile_eq_nil_iff.mpr l.isDigit]
  rw [readLiteral?, readSign_text]
  dsimp only
  rw [hsplit]
  simp [l.digits_ne, readExponent?, digitsValue_digits, literal]

/-- Read as a literal, a numeral other than zero is rounded like its value. -/
theorem nearest_literal {l : Numeral} (h : l.value ≠ 0) :
    l.literal.nearest = Binary64.ofInt l.value := by
  have hmagnitude : l.magnitude ≠ 0 := by
    rw [← natAbs_value]
    exact Int.natAbs_ne_zero.mpr h
  have hsign : decide (l.value < 0) = l.isMinus := by
    unfold value
    cases l.isMinus <;> simp
    omega
  have hlength := Nat.length_toDigits_le_iff (b := 10) (n := l.magnitude) (k := 310) (by norm_num)
    (by norm_num)
  rw [Binary64.ofInt, hsign, natAbs_value]
  unfold Literal.nearest literal
  dsimp only
  rw [if_neg (by simp [hmagnitude])]
  split
  · -- what is refused for its length exceeds the format anyway
    rename_i hlong
    have hpower : 2 ^ 1024 ≤ 10 ^ 310 := by decide +kernel
    have hlarge : 2 ^ 1024 ≤ l.magnitude := hpower.trans (by omega)
    refine (Binary64.ofRatio_eq_none Nat.one_pos ?_).symm
    rw [Nat.cast_one, div_one]
    exact_mod_cast hlarge
  · simp [Binary64.ofDecimal]

end Numeral

/-- The texts that are read as an integer. -/
theorem readInteger?_eq_some_iff {s : List Char} {n : ℤ} :
    readInteger? s = some n ↔ ∃ l : Numeral, l.text = s ∧ l.value = n := by
  constructor
  · intro h
    rcases exists_sign_append s with ⟨sign, hs, hnegative⟩
    rw [readInteger?] at h
    dsimp only at h
    cases hm : readNatural? (readSign s).2 with
    | none =>
      rw [hm] at h
      cases h
    | some m =>
      rcases readNatural?_eq_some_iff.mp hm with ⟨hne, hdigits, hmagnitude⟩
      rw [hm, hnegative, ← hmagnitude] at h
      exact ⟨⟨sign, (readSign s).2, hne, hdigits⟩, hs.symm, Option.some.inj h⟩
  · rintro ⟨l, rfl, rfl⟩
    exact l.readInteger?_text

end GraphFilter.Decimal
