import GraphFilter.Proofs.Decimal.Numeral
import GraphFilter.Proofs.Json.Members

/-!
# Natural numbers in a text

A member that may be a natural number is taken exactly if it is written with digits alone and
stands for a number of 64 bits, which is then kept exactly.  A sign, a point or an exponent
makes it another number, even if its value is the same.

Main results:

- Theorem {lit}`readScalar_eq_natural_iff`: the values that are natural numbers, by the
  characters that are read.
- Theorem {lit}`toOption_readNatural`: reading an optional natural number.
-/

namespace GraphFilter.Json

/-! ## Digits that fit -/

/-- Appending digits never makes a number smaller. -/
theorem le_valueFrom (start : Nat) (digits : List Char) :
    start ≤ Decimal.valueFrom start digits := by
  induction digits generalizing start with
  | nil => exact Nat.le_refl _
  | cons d digits ih =>
    have hrest := ih (10 * start + Decimal.digitValue d)
    change start ≤ Decimal.valueFrom (10 * start + Decimal.digitValue d) digits
    omega

/-- All digits are taken exactly if the number stays within the limit. -/
theorem takeDigits_eq_iff {limit start n : Nat} {digits : List Char} (hstart : start ≤ limit) :
    takeDigits limit start digits = (n, []) ↔ Decimal.valueFrom start digits = n ∧ n ≤ limit := by
  induction digits generalizing start with
  | nil =>
    change (start, ([] : List Char)) = (n, []) ↔ start = n ∧ n ≤ limit
    constructor
    · intro h
      cases h
      exact ⟨rfl, hstart⟩
    · rintro ⟨rfl, -⟩
      rfl
  | cons d digits ih =>
    have hvalue : Decimal.valueFrom start (d :: digits) =
        Decimal.valueFrom (10 * start + Decimal.digitValue d) digits := rfl
    rw [takeDigits, hvalue]
    split
    · rename_i hle
      exact ih hle
    · rename_i hlt
      have hle := le_valueFrom (10 * start + Decimal.digitValue d) digits
      constructor
      · intro h
        cases h
      · rintro ⟨hn, hlimit⟩
        omega

/-! ## Numbers -/

/-- A scaled number is never an integer. -/
theorem scaledNumber_ne_int (negative : Bool) (significand : Nat) (exponent : Int) (n : Int)
    (h : KeepsInteger n) : scaledNumber negative significand exponent ≠ some (.int n h) := by
  intro heq
  unfold scaledNumber at heq
  rw [Option.bind_eq_bind, Option.bind_eq_some_iff] at heq
  rcases heq with ⟨x, -, heq⟩
  rw [Option.bind_eq_some_iff] at heq
  rcases heq with ⟨y, -, heq⟩
  cases heq

/-- A plain integer is a natural number if it has no sign. -/
theorem integerNumber_eq_natural_iff {negative : Bool} {magnitude n : Nat} :
    (∃ h, integerNumber negative magnitude = some (.int (n : Int) h)) ↔
      negative = false ∧ magnitude = n ∧ n ≤ greatestSignificand := by
  have hkeeps : KeepsInteger (n : Int) ↔ n ≤ greatestSignificand := by
    unfold KeepsInteger greatestSignificand
    omega
  constructor
  · rintro ⟨h, heq⟩
    unfold integerNumber at heq
    cases negative with
    | false =>
      rw [if_pos (by decide)] at heq
      split at heq
      · have hvalue : (magnitude : Int) = n := Number.int.inj (Option.some.inj heq)
        exact ⟨rfl, Int.ofNat.inj hvalue, hkeeps.mp h⟩
      · cases heq
    | true =>
      rw [if_neg (by simp)] at heq
      split at heq
      · cases heq
      · rename_i hzero
        split at heq
        · have hvalue : -(magnitude : Int) = n := Number.int.inj (Option.some.inj heq)
          omega
        · rcases Option.map_eq_some_iff.mp heq with ⟨x, -, heq⟩
          cases heq
  · rintro ⟨rfl, rfl, hle⟩
    have h := hkeeps.mpr hle
    refine ⟨h, ?_⟩
    rw [integerNumber, if_pos (by decide), dif_pos h]

/-- The numbers that are natural. -/
theorem NumberText.value_eq_natural_iff {t : NumberText} {n : Nat} :
    (∃ h, t.value = some (.int (n : Int) h)) ↔
      t.negative = false ∧ t.fraction = none ∧ t.exponent = none ∧
        Decimal.digitsValue t.whole = n ∧ n ≤ greatestSignificand := by
  rcases hdigits : takeDigits greatestSignificand 0 t.whole with ⟨significand, left⟩
  have hstart : 0 ≤ greatestSignificand := Nat.zero_le _
  unfold value
  rw [hdigits]
  dsimp only
  split
  · rename_i hplain
    rw [Bool.and_eq_true, Bool.and_eq_true, Option.isNone_iff_eq_none, Option.isNone_iff_eq_none,
      List.isEmpty_iff] at hplain
    rcases hplain with ⟨⟨hfraction, hexponent⟩, rfl⟩
    have hvalue := (takeDigits_eq_iff hstart).mp hdigits
    rw [integerNumber_eq_natural_iff]
    constructor
    · rintro ⟨hnegative, rfl, hle⟩
      exact ⟨hnegative, hfraction, hexponent, hvalue⟩
    · rintro ⟨hnegative, -, -, hn, hle⟩
      exact ⟨hnegative, hvalue.1.symm.trans hn, hle⟩
  · rename_i hplain
    constructor
    · rintro ⟨h, heq⟩
      split at heq
      · exact absurd heq (scaledNumber_ne_int _ _ _ _ h)
      · split at heq
        · exact absurd heq (scaledNumber_ne_int _ _ _ _ h)
        · split at heq <;> cases heq
    · rintro ⟨-, hfraction, hexponent, hn⟩
      have hall := (takeDigits_eq_iff hstart).mpr hn
      rw [hdigits] at hall
      cases hall
      simp [hfraction, hexponent] at hplain

/-! ## Characters -/

namespace Cursor

/-- The characters between two places are those that the second one lacks. -/
theorem upTo_eq {c c' : Cursor} {chars : List Char} (h : c.rest = chars ++ c'.rest) :
    c.upTo c' = chars := by
  have hlength : c.rest.length - c'.rest.length = chars.length := by
    rw [h, List.length_append, Nat.add_sub_cancel]
  rw [upTo, hlength, h, List.take_left]

/-- A character in front of the second place is among those between. -/
theorem mem_upTo {c c' : Cursor} {before behind : List Char} {ch : Char}
    (h : c.rest = before ++ ch :: behind) (hle : c'.rest.length ≤ behind.length) :
    ch ∈ c.upTo c' := by
  have hlength : c.rest.length = before.length + (behind.length + 1) := by
    rw [h, List.length_append, List.length_cons]
  have hcount : before.length < c.rest.length - c'.rest.length := by
    omega
  rw [upTo, h, List.mem_take_iff_getElem]
  refine ⟨before.length, ?_, ?_⟩
  · rw [Nat.lt_min, ← h]
    exact ⟨hcount, by omega⟩
  · rw [List.getElem_append_right (Nat.le_refl _)]
    simp

/-- So is the character at the first place. -/
theorem head_mem_upTo {c c' : Cursor} {ch : Char} {rest : List Char} (h : c.rest = ch :: rest)
    (hlt : c'.rest.length < c.rest.length) : ch ∈ c.upTo c' := by
  rw [h, List.length_cons] at hlt
  rw [← List.nil_append (ch :: rest)] at h
  exact mem_upTo h (Nat.le_of_lt_succ hlt)

end Cursor

/-- The digits in front of a point are what is read. -/
theorem rest_of_readWhole {c c' : Cursor} {whole : List Char} (h : readWhole c = .ok (whole, c')) :
    c.rest = whole ++ c'.rest ∧ whole ≠ [] ∧ whole.all Char.isDigit = true := by
  have hzero {rest : List Char} (heq : c.rest = '0' :: rest) : c.rest = ['0'] ++ c.next.rest := by
    simp [Cursor.next, heq]
  unfold readWhole at h
  split at h
  · cases h
  · rename_i heq
    dsimp only at h
    split at h
    · split at h
      · cases h
      · cases h
        exact ⟨hzero heq, by simp, by decide⟩
    · cases h
      exact ⟨hzero heq, by simp, by decide⟩
  · rename_i d rest _ heq
    split at h
    · rename_i hdigit
      cases h
      refine ⟨?_, ?_, List.all_takeWhile⟩
      · rw [Cursor.rest_skip]
        exact (List.prefix_iff_eq_append.mp (List.takeWhile_prefix _)).symm
      · rw [heq, List.takeWhile_cons_of_pos hdigit]
        exact List.cons_ne_nil _ _
    · cases h

/-- A fraction is written behind a point. -/
theorem point_of_readFraction {c c' : Cursor} {fraction : Option (List Char)}
    (h : readFraction c = .ok (fraction, c')) : (fraction = none ∧ c' = c) ∨
      fraction ≠ none ∧ ∃ behind, c.rest = '.' :: behind ∧ c'.rest.length ≤ behind.length := by
  unfold readFraction at h
  split at h
  · rename_i behind heq
    have hdigits := length_readDigits_le c.next
    simp only [Cursor.next, heq] at hdigits
    dsimp only at h
    split at h
    · cases h
    · cases h
      simp only [Cursor.next, heq]
      exact .inr ⟨Option.some_ne_none _, behind, rfl, hdigits⟩
  · cases h
    exact .inl ⟨rfl, rfl⟩

/-- An exponent is written behind its letter. -/
theorem mark_of_readExponent {c c' : Cursor} {exponent : Option (Bool × List Char)}
    (h : readExponent c = .ok (exponent, c')) : (exponent = none ∧ c' = c) ∨
      exponent ≠ none ∧ ∃ mark behind, isExponentMark mark = true ∧ c.rest = mark :: behind ∧
        c'.rest.length ≤ behind.length := by
  unfold readExponent at h
  split at h
  · cases h
    exact .inl ⟨rfl, rfl⟩
  · rename_i mark behind heq
    split at h
    · cases h
      exact .inl ⟨rfl, rfl⟩
    · rename_i hmark
      have hnext : c.next.rest = behind := by simp only [Cursor.next, heq]
      have hsign := length_readExponentSign_le c.next
      have hdigits := length_readDigits_le (readExponentSign c.next).2
      rw [hnext] at hsign
      dsimp only at h
      split at h
      · cases h
      · split at h
        · cases h
          exact .inr ⟨Option.some_ne_none _, mark, behind, by simpa using hmark, heq,
            hdigits.trans hsign⟩
        · cases h

/-- The numbers that are natural, by the characters that are read. -/
theorem readNumber_eq_natural_iff {c c' : Cursor} {num : Number} {n : Nat}
    (h : readNumber c = .ok (num, c')) : (∃ hkeeps, num = .int (n : Int) hkeeps) ↔
      Decimal.readNatural? (c.upTo c') = some n ∧ n ≤ greatestSignificand := by
  have hlength := length_readNumber_lt h
  rcases exists_parts_of_readNumber h with
    ⟨negative, whole, fraction, exponent, c₀, c₁, c₂, hsign, hwhole, hfraction, hexponent, hvalue⟩
  rcases rest_of_readWhole hwhole with ⟨hrest, hne, hdigits⟩
  have hnatural : (∃ hkeeps, num = .int (n : Int) hkeeps) ↔
      negative = false ∧ fraction = none ∧ exponent = none ∧
        Decimal.digitsValue whole = n ∧ n ≤ greatestSignificand := by
    rw [← NumberText.value_eq_natural_iff (t := ⟨negative, whole, fraction, exponent⟩), hvalue]
    simp only [Option.some.injEq]
  have hstart : (negative = false ∧ c₀ = c) ∨
      negative ≠ false ∧ ∃ behind, c.rest = '-' :: behind := by
    split at hsign
    · rename_i heq
      cases hsign
      exact .inr ⟨by decide, _, heq⟩
    · cases hsign
      exact .inl ⟨rfl, rfl⟩
  rw [hnatural, Decimal.readNatural?]
  -- a sign, a point or an exponent is a character that is no digit
  by_cases hplain : negative = false ∧ fraction = none ∧ exponent = none
  · rcases hplain with ⟨rfl, rfl, rfl⟩
    have hsource : c.upTo c' = whole := by
      rcases hstart with ⟨-, rfl⟩ | ⟨hne, -⟩
      · rcases point_of_readFraction hfraction with ⟨-, rfl⟩ | ⟨hne, -⟩
        · rcases mark_of_readExponent hexponent with ⟨-, rfl⟩ | ⟨hne, -⟩
          · exact Cursor.upTo_eq hrest
          · exact absurd rfl hne
        · exact absurd rfl hne
      · exact absurd rfl hne
    rw [hsource, if_neg (by simp [hne, hdigits])]
    simp [Decimal.digitsValue]
  · have hsource : (c.upTo c').all Char.isDigit = false := by
      rw [← Bool.not_eq_true, List.all_eq_true]
      intro hall
      have hle := length_readExponent_le hexponent
      rcases hstart with ⟨hnegative, rfl⟩ | ⟨-, behind, heq⟩
      · rcases point_of_readFraction hfraction with ⟨hnone, rfl⟩ | ⟨-, behind, heq, hlt⟩
        · rcases mark_of_readExponent hexponent with
            ⟨hnone', rfl⟩ | ⟨-, mark, behind, hmark, heq, hlt⟩
          · exact hplain ⟨hnegative, hnone, hnone'⟩
          · have hdigit := hall mark (Cursor.mem_upTo (heq ▸ hrest) hlt)
            rcases Bool.or_eq_true_iff.mp hmark with hmark | hmark
            · rw [eq_of_beq hmark] at hdigit
              exact absurd hdigit (by decide)
            · rw [eq_of_beq hmark] at hdigit
              exact absurd hdigit (by decide)
        · have hdigit := hall '.' (Cursor.mem_upTo (heq ▸ hrest) (hle.trans hlt))
          exact absurd hdigit (by decide)
      · have hdigit := hall '-' (Cursor.head_mem_upTo heq hlength)
        exact absurd hdigit (by decide)
    rw [if_pos (by simp [hsource])]
    constructor
    · rintro ⟨hnegative, hnone, hnone', -⟩
      exact absurd ⟨hnegative, hnone, hnone'⟩ hplain
    · rintro ⟨hnone, -⟩
      cases hnone

/-- A number is read at its first digit. -/
theorem readScalar_of_isDigit {c : Cursor} {d : Char} {rest : List Char} (heq : c.rest = d :: rest)
    (h : d.isDigit = true) : readScalar c = (readNumber c).map fun (n, c) => (.number n, c) := by
  have hne (other : Char) (hother : other.isDigit = false) : d ≠ other := by
    rintro rfl
    rw [h] at hother
    cases hother
  unfold readScalar
  simp only [heq]
  rw [if_neg (hne _ (by decide)), if_neg (hne _ (by decide)), if_neg (hne _ (by decide)),
    if_neg (hne _ (by decide)), if_pos (by rw [h, Bool.or_true])]

/-- The number that is read. -/
theorem readNumber_of_readScalar {c c' : Cursor} {n : Number}
    (h : readScalar c = .ok (.number n, c')) : readNumber c = .ok (n, c') := by
  unfold readScalar at h
  split at h
  · cases h
  · repeat' split at h
    all_goals first
      | cases h
      | rcases exists_of_map_eq_ok h with ⟨_, hread, heq⟩
    all_goals cases heq
    exact hread

/-- The values that are natural numbers, by the characters that are read. -/
theorem readScalar_eq_natural_iff {c c' : Cursor} {v : Value} {n : Nat}
    (h : readScalar c = .ok (v, c')) : (∃ hkeeps, v = .number (.int (n : Int) hkeeps)) ↔
      Decimal.readNatural? (c.upTo c') = some n ∧ n ≤ greatestSignificand := by
  have hlength := length_readScalar_lt h
  constructor
  · rintro ⟨hkeeps, rfl⟩
    exact (readNumber_eq_natural_iff (readNumber_of_readScalar h)).mp ⟨hkeeps, rfl⟩
  · rintro ⟨hsource, hle⟩
    have hnumber : ∃ num, v = .number num ∧ readNumber c = .ok (num, c') := by
      cases hrest : c.rest with
      | nil =>
        rw [hrest] at hlength
        cases hlength
      | cons d rest =>
        have hmem : d ∈ c.upTo c' := Cursor.head_mem_upTo hrest hlength
        have hdigit := (Decimal.readNatural?_eq_some_iff.mp hsource).2.1 d hmem
        rw [readScalar_of_isDigit hrest hdigit] at h
        rcases exists_of_map_eq_ok h with ⟨⟨num, behind⟩, hread, heq⟩
        cases heq
        exact ⟨num, rfl, hread⟩
    rcases hnumber with ⟨num, rfl, hread⟩
    rcases (readNumber_eq_natural_iff hread).mpr ⟨hsource, hle⟩ with ⟨hkeeps, rfl⟩
    exact ⟨hkeeps, rfl⟩

/-! ## Members -/

/-- A value is read as an array or object at its bracket and as a scalar otherwise. -/
theorem cases_of_readValue {depth : Nat} {c c' : Cursor} {v : Value}
    (h : readValue depth c = .ok (v, c')) :
    (c.skipSpace.opens = false ∧ readScalar c.skipSpace = .ok (v, c')) ∨
      (c.skipSpace.opens = true ∧
        ((∃ items, v = .array items) ∨ ∃ members, v = .object members)) := by
  cases depth with
  | zero =>
    rw [readValue] at h
    split at h
    · cases h
    · rename_i hopens
      exact .inl ⟨Bool.not_eq_true _ ▸ hopens, h⟩
  | succ depth =>
    rw [readValue] at h
    split at h
    · rename_i heq
      rcases exists_of_map_eq_ok h with ⟨⟨items, _⟩, -, heq'⟩
      cases heq'
      refine .inr ⟨?_, .inl ⟨items, rfl⟩⟩
      simp [Cursor.opens, heq]
    · rename_i heq
      rcases exists_of_map_eq_ok h with ⟨⟨members, _⟩, -, heq'⟩
      cases heq'
      refine .inr ⟨?_, .inr ⟨members, rfl⟩⟩
      simp [Cursor.opens, heq]
    · rename_i hlist hobject
      refine .inl ⟨?_, h⟩
      unfold Cursor.opens
      split
      · rfl
      · rename_i ch _ heq
        rw [Bool.or_eq_false_iff, beq_eq_false_iff_ne, beq_eq_false_iff_ne]
        constructor
        · rintro rfl
          exact hlist _ heq
        · rintro rfl
          exact hobject _ heq

theorem readFlat_of_opens (expected : String) {c : Cursor} :
    (c.skipSpace.opens = false → readFlat expected c = readScalar c.skipSpace) ∧
      (c.skipSpace.opens = true → (readFlat expected c).toOption = none) := by
  constructor
  · intro hopens
    unfold readFlat
    dsimp only
    split
    · rename_i heq
      simp [Cursor.opens, heq] at hopens
    · rename_i heq
      simp [Cursor.opens, heq] at hopens
    · rfl
  · intro hopens
    unfold readFlat
    dsimp only
    split
    · rfl
    · rfl
    · rename_i hlist hobject
      unfold Cursor.opens at hopens
      split at hopens
      · cases hopens
      · rename_i heq
        rcases Bool.or_eq_true_iff.mp hopens with hch | hch
        · rw [eq_of_beq hch] at heq
          exact (hlist _ heq).elim
        · rw [eq_of_beq hch] at heq
          exact (hobject _ heq).elim

/-- The values that are natural numbers, by the characters that are read. -/
theorem readValue_eq_natural_iff {depth : Nat} {c c' : Cursor} {v : Value} {n : Nat}
    (h : readValue depth c = .ok (v, c')) : (∃ hkeeps, v = .number (.int (n : Int) hkeeps)) ↔
      Decimal.readNatural? (c.skipSpace.upTo c') = some n ∧ n ≤ greatestSignificand := by
  rcases cases_of_readValue h with ⟨-, hscalar⟩ | ⟨hopens, hvalue⟩
  · exact readScalar_eq_natural_iff hscalar
  · constructor
    · rintro ⟨hkeeps, rfl⟩
      simp at hvalue
    · rintro ⟨hsource, -⟩
      have hlength : c'.rest.length < c.skipSpace.rest.length := by
        rw [← readValue_skipSpace] at h
        exact length_readValue_lt h
      unfold Cursor.opens at hopens
      split at hopens
      · cases hopens
      · rename_i ch _ heq
        have hdigit := (Decimal.readNatural?_eq_some_iff.mp hsource).2.1 ch
          (Cursor.head_mem_upTo heq hlength)
        rcases Bool.or_eq_true_iff.mp hopens with hch | hch
        · rw [eq_of_beq hch] at hdigit
          exact absurd hdigit (by decide)
        · rw [eq_of_beq hch] at hdigit
          exact absurd hdigit (by decide)

/-- An optional natural number of 64 bits, by the characters of a member. -/
def Member.natural? (m : Member) : Option (Option UInt64) :=
  if m.value.isNull then some none
  else (Decimal.readNatural? m.source).bind fun n =>
    if n ≤ greatestSignificand then some (some (UInt64.ofNat n)) else none

/-- Reading an optional natural number. -/
theorem toOption_readNatural {depth : Nat} {key : String} {c c' : Cursor} {m : Member}
    (h : readMemberValue depth key c = .ok (m, c')) :
    (readNatural c).toOption = m.natural?.map (·, c') := by
  rcases readValue_of_readMemberValue h with ⟨hvalue, -, hsource⟩
  have hnone (hother : ∀ (n : Nat) hkeeps, m.value ≠ .number (.int n hkeeps)) :
      ((Decimal.readNatural? m.source).bind fun n =>
        if n ≤ greatestSignificand then some (some (UInt64.ofNat n)) else none) = none := by
    rw [Option.bind_eq_none_iff]
    intro n hn
    rw [if_neg]
    intro hle
    rcases (readValue_eq_natural_iff hvalue).mpr ⟨hsource ▸ hn, hle⟩ with ⟨hkeeps, heq⟩
    exact hother n hkeeps heq
  rcases cases_of_readValue hvalue with ⟨hopens, hscalar⟩ | ⟨hopens, hbracket⟩
  · rw [readNatural, toOption_bind, (readFlat_of_opens "u64").1 hopens, hscalar]
    rw [Member.natural?]
    cases hv : m.value with
    | null => rfl
    | number num =>
      cases num with
      | int z hkeeps =>
        by_cases hz : 0 ≤ z
        · obtain ⟨n, rfl⟩ := Int.eq_ofNat_of_zero_le hz
          rcases (readValue_eq_natural_iff hvalue).mp ⟨hkeeps, hv⟩ with ⟨hn, hle⟩
          simp [Value.isNull, hsource, hn, hle, Except.toOption, pure, Except.pure]
        · rw [if_neg (by simp [Value.isNull]), hnone]
          · simp [hz, Except.toOption, Cursor.failHere]
          · intro n hkeeps' heq
            rw [hv] at heq
            have hn : z = n := Number.int.inj (Value.number.inj heq)
            omega
      | float x =>
        rw [if_neg (by simp [Value.isNull]), hnone]
        · rfl
        · simp [hv]
    | bool b =>
      rw [if_neg (by simp [Value.isNull]), hnone (by simp [hv])]
      rfl
    | string s =>
      rw [if_neg (by simp [Value.isNull]), hnone (by simp [hv])]
      rfl
    | array items =>
      rw [if_neg (by simp [Value.isNull]), hnone (by simp [hv])]
      rfl
    | object members =>
      rw [if_neg (by simp [Value.isNull]), hnone (by simp [hv])]
      rfl
  · rw [readNatural, toOption_bind, (readFlat_of_opens "u64").2 hopens]
    rcases hbracket with ⟨items, heq⟩ | ⟨members, heq⟩
    · rw [Member.natural?, if_neg (by simp [heq, Value.isNull]), hnone (by simp [heq])]
      rfl
    · rw [Member.natural?, if_neg (by simp [heq, Value.isNull]), hnone (by simp [heq])]
      rfl

end GraphFilter.Json
