import GraphFilter.Proofs.Decimal.Numeral

/-!
# Written decimal numbers

A decimal number is written as digits, a point among them or beside them or none at all, behind
an optional sign and in front of an optional exponent.  Exactly these texts are read as literals.
A literal is rounded to a number of the format exactly if it does not overflow, however many
digits it has and however large its exponent is.

Main results:

- Theorem {lit}`readLiteral?_eq_some_iff`: the texts that are read as literals.
- Theorem {lit}`Literal.exists_nearest_iff`: the literals that are rounded to a number.
-/

namespace GraphFilter.Decimal

/-! ## Digits behind which something else follows -/

theorem isDigit_of_mem_splitDigits {s : List Char} : ∀ c ∈ (splitDigits s).1, c.isDigit = true :=
  fun _ hc => List.mem_takeWhile_imp hc

/-- Digits are split off as a whole. -/
theorem splitDigits_of_digits {digits rest : List Char} (hdigits : ∀ c ∈ digits, c.isDigit = true)
    (hrest : ∀ c ∈ rest.head?, c.isDigit = false) :
    splitDigits (digits ++ rest) = (digits, rest) := by
  have htake : rest.takeWhile Char.isDigit = [] := by
    cases rest with
    | nil => rfl
    | cons c rest => simp [hrest c rfl]
  have hdrop : rest.dropWhile Char.isDigit = rest := by
    cases rest with
    | nil => rfl
    | cons c rest => simp [hrest c rfl]
  rw [splitDigits, List.takeWhile_append_of_pos hdigits, List.dropWhile_append_of_pos hdigits, htake,
    hdrop, List.append_nil]

/-! ## Exponents -/

/-- An exponent as it can be written. -/
structure Exponent where
  isCapital : Bool
  numeral : Numeral

namespace Exponent

/-- The characters of an exponent that may be absent. -/
def text : Option Exponent → List Char
  | none => []
  | some e => (if e.isCapital then 'E' else 'e') :: e.numeral.text

/-- The power of ten that it denotes. -/
def value : Option Exponent → ℤ
  | none => 0
  | some e => e.numeral.value

theorem head_text {e : Option Exponent} {c : Char} (hc : c ∈ (text e).head?) :
    c = 'e' ∨ c = 'E' := by
  rcases e with _ | ⟨isCapital, l⟩
  · cases hc
  · cases isCapital
    · exact .inl (Option.mem_some.mp hc).symm
    · exact .inr (Option.mem_some.mp hc).symm

end Exponent

/-- The texts that are read as an exponent. -/
theorem readExponent?_eq_some_iff {s : List Char} {n : ℤ} :
    readExponent? s = some n ↔ ∃ e, Exponent.text e = s ∧ Exponent.value e = n := by
  constructor
  · intro h
    unfold readExponent? at h
    split at h
    · exact ⟨none, rfl, Option.some.inj h⟩
    · rename_i c rest
      split at h
      · rename_i hmark
        rcases readInteger?_eq_some_iff.mp h with ⟨l, rfl, rfl⟩
        rw [Bool.or_eq_true, beq_iff_eq, beq_iff_eq] at hmark
        rcases hmark with rfl | rfl
        · exact ⟨some ⟨false, l⟩, rfl, rfl⟩
        · exact ⟨some ⟨true, l⟩, rfl, rfl⟩
      · cases h
  · rintro ⟨_ | ⟨isCapital, l⟩, rfl, rfl⟩
    · rfl
    · cases isCapital <;> exact l.readInteger?_text

/-! ## Fractions -/

/-- The characters of a fraction: its digits behind a point, if there is one. -/
def fractionText : Option (List Char) → List Char
  | none => []
  | some digits => '.' :: digits

/-- Split a text into the digits behind a point in front of it and the rest. -/
def splitFraction (s : List Char) : List Char × List Char :=
  match s with
  | '.' :: more => splitDigits more
  | other => ([], other)

/-- Splitting off a fraction splits a text behind it. -/
theorem exists_fraction_append (s : List Char) :
    ∃ fraction, s = fractionText fraction ++ (splitFraction s).2 ∧
      (splitFraction s).1 = fraction.getD [] ∧ ∀ c ∈ fraction.getD [], c.isDigit = true := by
  unfold splitFraction
  split
  · rename_i more
    refine ⟨some (splitDigits more).1, ?_, rfl, isDigit_of_mem_splitDigits⟩
    rw [fractionText, List.cons_append, splitDigits_append]
  · exact ⟨none, rfl, rfl, by simp⟩

/-- A fraction in front of an exponent is split off as a whole. -/
theorem splitFraction_append {fraction : Option (List Char)}
    (hdigits : ∀ c ∈ fraction.getD [], c.isDigit = true) (e : Option Exponent) :
    splitFraction (fractionText fraction ++ Exponent.text e) =
      (fraction.getD [], Exponent.text e) := by
  cases fraction with
  | none =>
    rcases e with _ | ⟨isCapital, l⟩
    · rfl
    · cases isCapital <;> rfl
  | some digits =>
    refine splitDigits_of_digits hdigits ?_
    intro c hc
    rcases Exponent.head_text hc with rfl | rfl <;> rfl

/-! ## Literals -/

namespace Literal

/-- The number without its sign. -/
def magnitude (l : Literal) : ℚ :=
  l.digits * 10 ^ l.exponent

/-- The number that is denoted. -/
def value (l : Literal) : ℚ :=
  if l.negative then -l.magnitude else l.magnitude

theorem magnitude_nonneg (l : Literal) : 0 ≤ l.magnitude := by
  unfold magnitude
  positivity

theorem abs_value (l : Literal) : |l.value| = l.magnitude := by
  unfold value
  split
  · rw [abs_neg, abs_of_nonneg l.magnitude_nonneg]
  · exact abs_of_nonneg l.magnitude_nonneg

/-- The place in front of the first digit, as a power of ten. -/
def scale (l : Literal) : ℤ :=
  l.exponent + (Nat.toDigits 10 l.digits).length

theorem magnitude_lt (l : Literal) : l.magnitude < 10 ^ l.scale := by
  have hlength : l.digits < 10 ^ (Nat.toDigits 10 l.digits).length :=
    (Nat.length_toDigits_le_iff (by norm_num) Nat.length_toDigits_pos).mp le_rfl
  calc l.magnitude < ((10 ^ (Nat.toDigits 10 l.digits).length : Nat) : ℚ) * 10 ^ l.exponent := by
        unfold magnitude
        gcongr
    _ = 10 ^ l.scale := by
        rw [scale, add_comm, zpow_add₀ (by norm_num), zpow_natCast]
        push_cast
        rfl

theorem le_magnitude {l : Literal} (h : l.digits ≠ 0) : 10 ^ (l.scale - 1) ≤ l.magnitude := by
  have hpos : 0 < (Nat.toDigits 10 l.digits).length := Nat.length_toDigits_pos
  have hlength : 10 ^ ((Nat.toDigits 10 l.digits).length - 1) ≤ l.digits := by
    by_cases hone : (Nat.toDigits 10 l.digits).length = 1
    · rw [hone]
      exact Nat.one_le_iff_ne_zero.mpr h
    · refine not_lt.mp fun hlt => ?_
      have hle := (Nat.length_toDigits_le_iff (by norm_num) (by omega)).mpr hlt
      omega
  have hscale : l.scale - 1 =
      (((Nat.toDigits 10 l.digits).length - 1 : Nat) : ℤ) + l.exponent := by
    unfold scale
    omega
  calc (10 : ℚ) ^ (l.scale - 1)
      = ((10 ^ ((Nat.toDigits 10 l.digits).length - 1) : Nat) : ℚ) * 10 ^ l.exponent := by
        rw [hscale, zpow_add₀ (by norm_num), zpow_natCast]
        push_cast
        rfl
    _ ≤ l.magnitude := by
        unfold magnitude
        gcongr

/-- Computed as a quotient, a literal is rounded to a number exactly if it does not overflow. -/
theorem exists_ofDecimal_iff (l : Literal) :
    (∃ x, Binary64.ofDecimal l.negative l.digits l.exponent = some x) ↔
      l.magnitude < Binary64.overflow := by
  have hden : 0 < Nat.pow 10 (-l.exponent).toNat := Nat.pow_pos (by norm_num)
  rw [Binary64.ofDecimal, Binary64.exists_ofRatio_iff hden, Nat.pow_eq, Nat.pow_eq, Nat.cast_mul,
    mul_div_assoc, pow_div]
  rfl

/-- A literal is rounded to a number of the format exactly if it does not overflow, also where
the power of ten is not computed. -/
theorem exists_nearest_iff (l : Literal) :
    (∃ x, l.nearest = some x) ↔ |l.value| < Binary64.overflow := by
  have hlarge : (2 : ℚ) ^ (1024 : ℤ) ≤ 10 ^ (310 : ℤ) := by
    have hpower : 2 ^ 1024 ≤ 10 ^ 310 := by decide +kernel
    rw [zpow_ofNat, zpow_ofNat]
    exact_mod_cast hpower
  have hsmall : (1 : ℚ) ≤ Binary64.overflow :=
    (one_le_zpow₀ (by norm_num) (by norm_num)).trans Binary64.two_pow_le_overflow
  rw [abs_value]
  unfold nearest
  change (∃ x, (if l.digits = 0 || l.scale < -330 then _ else if l.scale > 310 then _ else _) =
    some x) ↔ _
  by_cases hzero : l.digits = 0
  · rw [if_pos (by simp [hzero])]
    refine iff_of_true ⟨_, rfl⟩ ?_
    rw [magnitude, hzero, Nat.cast_zero, zero_mul]
    exact lt_of_lt_of_le one_pos hsmall
  · by_cases hlow : l.scale < -330
    · rw [if_pos (by simp [hlow])]
      refine iff_of_true ⟨_, rfl⟩ ?_
      calc l.magnitude < 10 ^ l.scale := l.magnitude_lt
        _ ≤ 1 := zpow_le_one_of_nonpos₀ (by norm_num) (by omega)
        _ ≤ Binary64.overflow := hsmall
    · rw [if_neg (by simp [hzero, hlow])]
      by_cases hhigh : l.scale > 310
      · rw [if_pos hhigh]
        refine iff_of_false (by simp) (not_lt.mpr ?_)
        calc Binary64.overflow ≤ 2 ^ (1024 : ℤ) := Binary64.overflow_le_two_pow
          _ ≤ 10 ^ (310 : ℤ) := hlarge
          _ ≤ 10 ^ (l.scale - 1) := zpow_le_zpow_right₀ (by norm_num) (by omega)
          _ ≤ l.magnitude := le_magnitude hzero
      · rw [if_neg hhigh]
        exact l.exists_ofDecimal_iff

end Literal

/-! ## Decimal numbers -/

/-- A decimal number as it can be written.  Digits may be missing on one side of the point, but
not on both. -/
structure Written where
  sign : Sign
  whole : List Char
  fraction : Option (List Char)
  exponent : Option Exponent
  digits_ne : whole ++ fraction.getD [] ≠ []
  isDigit_whole : ∀ c ∈ whole, c.isDigit = true
  isDigit_fraction : ∀ c ∈ fraction.getD [], c.isDigit = true

namespace Written

/-- The characters of the number. -/
def text (d : Written) : List Char :=
  d.sign.text ++ (d.whole ++ (fractionText d.fraction ++ Exponent.text d.exponent))

/-- All digits as one number, and the power of ten that puts the point in its place. -/
def literal (d : Written) : Literal where
  negative := d.sign == .minus
  digits := Nat.ofDigitChars 10 (d.whole ++ d.fraction.getD []) 0
  exponent := Exponent.value d.exponent - (d.fraction.getD []).length

/-- The number that is written. -/
def value (d : Written) : ℚ :=
  d.literal.value

theorem head_behind (d : Written) :
    ∀ c ∈ (fractionText d.fraction ++ Exponent.text d.exponent).head?,
      c.isDigit = false ∧ c ≠ '-' ∧ c ≠ '+' := by
  intro c hc
  cases hfraction : d.fraction with
  | none =>
    rw [hfraction] at hc
    rcases Exponent.head_text hc with rfl | rfl <;> decide
  | some digits =>
    rw [hfraction] at hc
    cases hc
    decide

theorem head_unsigned (d : Written) :
    ∀ c ∈ (d.whole ++ (fractionText d.fraction ++ Exponent.text d.exponent)).head?,
      c ≠ '-' ∧ c ≠ '+' := by
  intro c hc
  cases hwhole : d.whole with
  | nil =>
    rw [hwhole] at hc
    exact (d.head_behind c hc).2
  | cons digit rest =>
    have hdigit := d.isDigit_whole digit (by simp [hwhole])
    rw [hwhole] at hc
    cases hc
    exact ⟨ne_of_isDigit hdigit (by decide), ne_of_isDigit hdigit (by decide)⟩

end Written

/-- Reading a literal takes it apart at the sign, the digits and the point. -/
theorem readLiteral?_of_split {s unsigned whole behind fraction exponent : List Char}
    {negative : Bool} (hsign : readSign s = (negative, unsigned))
    (hwhole : splitDigits unsigned = (whole, behind))
    (hfraction : splitFraction behind = (fraction, exponent)) :
    readLiteral? s = if whole ++ fraction = [] then none else (readExponent? exponent).map
      fun e => ⟨negative, digitsValue (whole ++ fraction), e - fraction.length⟩ := by
  have hread : readLiteral? s =
      if (splitDigits (readSign s).2).1.isEmpty &&
        (splitFraction (splitDigits (readSign s).2).2).1.isEmpty then none
      else (readExponent? (splitFraction (splitDigits (readSign s).2).2).2).map fun e =>
        ⟨(readSign s).1, digitsValue ((splitDigits (readSign s).2).1 ++
          (splitFraction (splitDigits (readSign s).2).2).1),
          e - (splitFraction (splitDigits (readSign s).2).2).1.length⟩ := rfl
  rw [hread, hsign]
  dsimp only
  rw [hwhole]
  dsimp only
  rw [hfraction]
  simp [List.isEmpty_iff]

/-- The texts that are read as a literal. -/
theorem readLiteral?_eq_some_iff {s : List Char} {l : Literal} :
    readLiteral? s = some l ↔ ∃ d : Written, d.text = s ∧ d.literal = l := by
  constructor
  · intro h
    rcases exists_sign_append s with ⟨sign, hs, hnegative⟩
    rcases exists_fraction_append (splitDigits (readSign s).2).2 with
      ⟨fraction, hbehind, hdecimals, hisDigit⟩
    rw [readLiteral?_of_split Prod.mk.eta.symm Prod.mk.eta.symm Prod.mk.eta.symm, hdecimals] at h
    by_cases hne : (splitDigits (readSign s).2).1 ++ fraction.getD [] = []
    · rw [if_pos hne] at h
      cases h
    · rw [if_neg hne] at h
      rcases Option.map_eq_some_iff.mp h with ⟨n, hn, rfl⟩
      rcases readExponent?_eq_some_iff.mp hn with ⟨e, htext, hvalue⟩
      refine ⟨⟨sign, (splitDigits (readSign s).2).1, fraction, e, hne, isDigit_of_mem_splitDigits,
        hisDigit⟩, ?_, ?_⟩
      · rw [Written.text, htext, ← hbehind, splitDigits_append, ← hs]
      · rw [Written.literal, hvalue, ← hnegative]
        rfl
  · rintro ⟨d, rfl, rfl⟩
    rw [Written.text, readLiteral?_of_split (readSign_append d.sign d.head_unsigned)
      (splitDigits_of_digits d.isDigit_whole fun c hc => (d.head_behind c hc).1)
      (splitFraction_append d.isDigit_fraction d.exponent), if_neg d.digits_ne,
      readExponent?_eq_some_iff.mpr ⟨d.exponent, rfl, rfl⟩]
    rfl

end GraphFilter.Decimal
