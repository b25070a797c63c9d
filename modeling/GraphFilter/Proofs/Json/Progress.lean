import GraphFilter.Proofs.Json.Keys
import Mathlib.Order.Nat

/-!
# Readers move forward

What a reader leaves unread is never longer than what it began with, and a value takes at
least one character.  So the loops over characters, elements and members, which are bounded
by the characters that are left, never end for that reason.

Main results:

- Theorem {lit}`length_readValue_lt`: a value takes at least one character.
- Theorem {lit}`length_nextKey_lt`: so does a key.
-/

namespace GraphFilter.Json

/-! ## Cursors -/

namespace Cursor

theorem length_next_le (c : Cursor) : c.next.rest.length ≤ c.rest.length := by
  unfold next
  split
  · exact Nat.le_refl _
  · rename_i heq
    simp [heq]

/-- Moving behind a character leaves fewer of them. -/
theorem length_next_lt {c : Cursor} {ch : Char} {rest : List Char} (h : c.rest = ch :: rest) :
    c.next.rest.length < c.rest.length := by
  simp [next, h]

theorem length_skipSpace_le (c : Cursor) : c.skipSpace.rest.length ≤ c.rest.length := by
  rcases c with ⟨rest, position⟩
  change (skipFrom position rest).rest.length ≤ rest.length
  induction rest generalizing position with
  | nil => exact Nat.le_refl _
  | cons ch rest ih =>
    rw [skipFrom]
    split
    · exact (ih _).trans (Nat.le_succ _)
    · exact Nat.le_refl _

/-- There is no space behind spaces. -/
theorem skipSpace_skipSpace (c : Cursor) : c.skipSpace.skipSpace = c.skipSpace := by
  rcases c with ⟨rest, position⟩
  change (skipFrom position rest).skipSpace = skipFrom position rest
  induction rest generalizing position with
  | nil => rfl
  | cons ch rest ih =>
    rw [skipFrom]
    split
    · exact ih _
    · rename_i hspace
      rw [skipSpace, skipFrom, if_neg hspace]

/-- Moving behind characters drops them. -/
theorem rest_skip (c : Cursor) (count : Nat) : (c.skip count).rest = c.rest.drop count := by
  induction count generalizing c with
  | zero => rfl
  | succ count ih =>
    rw [skip, ih]
    unfold next
    split
    · rename_i heq
      rw [heq, List.drop_nil, List.drop_nil]
    · rename_i heq
      rw [heq, List.drop_succ_cons]

theorem length_skip_le (c : Cursor) (count : Nat) :
    (c.skip count).rest.length ≤ c.rest.length := by
  rw [rest_skip, List.length_drop]
  exact Nat.sub_le _ _

end Cursor

/-! ## Words and strings -/

theorem length_readWord_le {letters : List Char} {c c' : Cursor}
    (h : readWord letters c = .ok c') : c'.rest.length ≤ c.rest.length := by
  induction letters generalizing c with
  | nil =>
    cases h
    exact Nat.le_refl _
  | cons letter letters ih =>
    rw [readWord] at h
    split at h
    · cases h
    · split at h
      · exact (ih h).trans c.length_next_le
      · cases h

theorem length_readHex_le {c c' : Cursor} {n : Nat} (h : readHex c = .ok (n, c')) :
    c'.rest.length ≤ c.rest.length := by
  unfold readHex at h
  split at h
  · cases h
    have h₁ := c.length_next_le
    have h₂ := c.next.length_next_le
    have h₃ := c.next.next.length_next_le
    have h₄ := c.next.next.next.length_next_le
    omega
  · split at h <;> cases h

theorem length_expectInPair_le {expected : Char} {c c' : Cursor}
    (h : expectInPair expected c = .ok c') : c'.rest.length ≤ c.rest.length := by
  unfold expectInPair at h
  split at h
  · cases h
  · split at h
    · cases h
      exact c.length_next_le
    · cases h

theorem length_readCodeEscape_le {c c' : Cursor} {ch : Char}
    (h : readCodeEscape c = .ok (ch, c')) : c'.rest.length ≤ c.rest.length := by
  rcases exists_of_bind_eq_ok h with ⟨⟨high, c₁⟩, hhigh, h⟩
  have h₁ := length_readHex_le hhigh
  dsimp only at h
  split at h
  · cases h
  · split at h
    · rcases exists_of_bind_eq_ok h with ⟨c₂, hslash, h⟩
      rcases exists_of_bind_eq_ok h with ⟨c₃, hletter, h⟩
      rcases exists_of_bind_eq_ok h with ⟨⟨low, c₄⟩, hlow, h⟩
      have h₂ := length_expectInPair_le hslash
      have h₃ := length_expectInPair_le hletter
      have h₄ := length_readHex_le hlow
      dsimp only at h
      split at h
      · have hbehind : c₄ = c' := congrArg Prod.snd (Except.ok.inj h)
        rw [← hbehind]
        omega
      · cases h
    · have hbehind : c₁ = c' := congrArg Prod.snd (Except.ok.inj h)
      exact hbehind ▸ h₁

theorem length_readEscape_le {c c' : Cursor} {ch : Char} (h : readEscape c = .ok (ch, c')) :
    c'.rest.length ≤ c.rest.length := by
  unfold readEscape at h
  split at h
  · cases h
  · exact (length_readCodeEscape_le h).trans c.length_next_le
  · split at h
    · cases h
      exact c.length_next_le
    · cases h

/-- A string takes at least its closing quote. -/
theorem length_readChars_lt {steps : Nat} {taken chars : List Char} {c c' : Cursor}
    (h : readChars steps taken c = .ok (chars, c')) : c'.rest.length < c.rest.length := by
  induction steps generalizing taken c with
  | zero => cases h
  | succ steps ih =>
    rw [readChars] at h
    split at h
    · cases h
    · rename_i heq
      cases h
      exact Cursor.length_next_lt heq
    · rename_i heq
      rcases exists_of_bind_eq_ok h with ⟨⟨ch, behind⟩, hescape, h⟩
      have hrest := ih h
      have hbehind := length_readEscape_le hescape
      have hnext := Cursor.length_next_lt heq
      omega
    · rename_i heq
      split at h
      · cases h
      · exact (ih h).trans (Cursor.length_next_lt heq)

theorem length_readString_lt {c c' : Cursor} {s : String} (h : readString c = .ok (s, c')) :
    c'.rest.length < c.rest.length := by
  rcases exists_of_bind_eq_ok h with ⟨⟨chars, behind⟩, hchars, h⟩
  cases h
  exact length_readChars_lt hchars

/-! ## Numbers -/

theorem length_readDigits_le (c : Cursor) : (readDigits c).2.rest.length ≤ c.rest.length :=
  c.length_skip_le _

/-- A number takes at least the digit at its front. -/
theorem length_readWhole_lt {c c' : Cursor} {digits : List Char}
    (h : readWhole c = .ok (digits, c')) : c'.rest.length < c.rest.length := by
  unfold readWhole at h
  split at h
  · cases h
  · rename_i heq
    dsimp only at h
    split at h
    · split at h
      · cases h
      · cases h
        exact Cursor.length_next_lt heq
    · cases h
      exact Cursor.length_next_lt heq
  · rename_i d rest _ heq
    split at h
    · rename_i hdigit
      cases h
      have hdigits : (c.rest.takeWhile Char.isDigit).length = (rest.takeWhile Char.isDigit).length
          + 1 := by
        rw [heq, List.takeWhile_cons_of_pos hdigit, List.length_cons]
      have hpos : 0 < c.rest.length := by
        rw [heq]
        exact Nat.succ_pos _
      rw [Cursor.rest_skip, List.length_drop, hdigits]
      omega
    · cases h

theorem length_readFraction_le {c c' : Cursor} {fraction : Option (List Char)}
    (h : readFraction c = .ok (fraction, c')) : c'.rest.length ≤ c.rest.length := by
  unfold readFraction at h
  split at h
  · dsimp only at h
    split at h
    · cases h
    · cases h
      exact (length_readDigits_le _).trans c.length_next_le
  · cases h
    exact Nat.le_refl _

theorem length_readExponentSign_le (c : Cursor) :
    (readExponentSign c).2.rest.length ≤ c.rest.length := by
  unfold readExponentSign
  split
  · exact c.length_next_le
  · exact c.length_next_le
  · exact Nat.le_refl _

theorem length_readExponent_le {c c' : Cursor} {exponent : Option (Bool × List Char)}
    (h : readExponent c = .ok (exponent, c')) : c'.rest.length ≤ c.rest.length := by
  unfold readExponent at h
  split at h
  · cases h
    exact Nat.le_refl _
  · split at h
    · cases h
      exact Nat.le_refl _
    · dsimp only at h
      split at h
      · cases h
      · split at h
        · cases h
          have hdigits := length_readDigits_le (readExponentSign c.next).2
          have hsign := length_readExponentSign_le c.next
          have hnext := c.length_next_le
          omega
        · cases h

/-- A number in its parts, which were read one behind the other. -/
theorem exists_parts_of_readNumber {c c' : Cursor} {n : Number} (h : readNumber c = .ok (n, c')) :
    ∃ (negative : Bool) (whole : List Char) (fraction : Option (List Char))
        (exponent : Option (Bool × List Char)) (c₀ c₁ c₂ : Cursor),
      (negative, c₀) = (match c.rest with
        | '-' :: _ => (true, c.next)
        | _ => (false, c)) ∧
      readWhole c₀ = .ok (whole, c₁) ∧ readFraction c₁ = .ok (fraction, c₂) ∧
      readExponent c₂ = .ok (exponent, c') ∧
      NumberText.value ⟨negative, whole, fraction, exponent⟩ = some n := by
  rcases exists_of_bind_eq_ok h with ⟨⟨whole, c₁⟩, hwhole, h⟩
  rcases exists_of_bind_eq_ok h with ⟨⟨fraction, c₂⟩, hfraction, h⟩
  rcases exists_of_bind_eq_ok h with ⟨⟨exponent, behind⟩, hexponent, h⟩
  refine ⟨_, whole, fraction, exponent, _, c₁, c₂, rfl, hwhole, hfraction, ?_⟩
  dsimp only at h
  split at h
  · cases h
  · split at h
    · rename_i hvalue
      cases h
      exact ⟨hexponent, hvalue⟩
    · cases h

theorem length_readNumber_lt {c c' : Cursor} {n : Number} (h : readNumber c = .ok (n, c')) :
    c'.rest.length < c.rest.length := by
  rcases exists_parts_of_readNumber h with
    ⟨negative, whole, fraction, exponent, c₀, c₁, c₂, hsign, hwhole, hfraction, hexponent, -⟩
  have h₀ : c₀.rest.length ≤ c.rest.length := by
    split at hsign
    · cases hsign
      exact c.length_next_le
    · cases hsign
      exact Nat.le_refl _
  have h₁ := length_readWhole_lt hwhole
  have h₂ := length_readFraction_le hfraction
  have h₃ := length_readExponent_le hexponent
  omega

/-! ## Values -/

theorem length_readScalar_lt {c c' : Cursor} {v : Value} (h : readScalar c = .ok (v, c')) :
    c'.rest.length < c.rest.length := by
  unfold readScalar at h
  split at h
  · cases h
  · rename_i heq
    have hnext := Cursor.length_next_lt heq
    split at h
    · rcases exists_of_map_eq_ok h with ⟨_, hword, heq⟩
      cases heq
      exact (length_readWord_le hword).trans_lt hnext
    · split at h
      · rcases exists_of_map_eq_ok h with ⟨_, hword, heq⟩
        cases heq
        exact (length_readWord_le hword).trans_lt hnext
      · split at h
        · rcases exists_of_map_eq_ok h with ⟨_, hword, heq⟩
          cases heq
          exact (length_readWord_le hword).trans_lt hnext
        · split at h
          · rcases exists_of_map_eq_ok h with ⟨_, hstring, heq⟩
            cases heq
            exact (length_readString_lt hstring).trans hnext
          · split at h
            · rcases exists_of_map_eq_ok h with ⟨_, hnumber, heq⟩
              cases heq
              exact length_readNumber_lt hnumber
            · cases h

theorem length_nextItem_le {first more : Bool} {c c' : Cursor}
    (h : nextItem first c = .ok (more, c')) : c'.rest.length ≤ c.rest.length := by
  have hspace := c.length_skipSpace_le
  unfold nextItem at h
  dsimp only at h
  split at h
  · cases h
  · split at h
    · cases h
      exact hspace
    · split at h
      · cases h
        exact hspace
      · split at h
        · split at h
          · cases h
          · split at h
            · cases h
            · cases h
              exact (c.skipSpace.next.length_skipSpace_le.trans c.skipSpace.length_next_le).trans
                hspace
        · cases h

/-- If no element follows, the closing bracket does. -/
theorem eq_skipSpace_of_nextItem {first : Bool} {c c' : Cursor}
    (h : nextItem first c = .ok (false, c')) :
    c' = c.skipSpace ∧ ∃ rest, c'.rest = ']' :: rest := by
  unfold nextItem at h
  dsimp only at h
  split at h
  · cases h
  · rename_i heq
    split at h
    · rename_i hbracket
      cases h
      exact ⟨rfl, _, hbracket ▸ heq⟩
    · split at h
      · cases h
      · split at h
        · split at h
          · cases h
          · split at h <;> cases h
        · cases h

theorem length_readKey_lt {c c' : Cursor} {key : Option String}
    (h : readKey c = .ok (key, c')) : c'.rest.length < c.rest.length := by
  unfold readKey at h
  split at h
  · cases h
  · rename_i heq
    split at h
    · rcases exists_of_map_eq_ok h with ⟨_, hstring, heq'⟩
      cases heq'
      exact (length_readString_lt hstring).trans (Cursor.length_next_lt heq)
    · split at h <;> cases h

/-- A key takes at least one character. -/
theorem length_nextKey_lt {first : Bool} {key : String} {c c' : Cursor}
    (h : nextKey first c = .ok (some key, c')) : c'.rest.length < c.rest.length := by
  have hspace := c.length_skipSpace_le
  unfold nextKey at h
  dsimp only at h
  split at h
  · cases h
  · split at h
    · cases h
    · split at h
      · exact (length_readKey_lt h).trans_le hspace
      · split at h
        · have hnext := c.skipSpace.next.length_skipSpace_le
          have hcomma := c.skipSpace.length_next_le
          have hkey := length_readKey_lt h
          omega
        · cases h

/-- If no key follows, the closing brace does. -/
theorem eq_skipSpace_of_nextKey {first : Bool} {c c' : Cursor}
    (h : nextKey first c = .ok (none, c')) :
    c' = c.skipSpace ∧ ∃ rest, c'.rest = '\x7d' :: rest := by
  have hkey {c c' : Cursor} : readKey c ≠ .ok (none, c') := by
    intro h
    unfold readKey at h
    split at h
    · cases h
    · split at h
      · rcases exists_of_map_eq_ok h with ⟨_, -, heq⟩
        cases heq
      · split at h <;> cases h
  unfold nextKey at h
  dsimp only at h
  split at h
  · cases h
  · rename_i heq
    split at h
    · rename_i hbrace
      cases h
      exact ⟨rfl, _, hbrace ▸ heq⟩
    · split at h
      · exact absurd h hkey
      · split at h
        · exact absurd h hkey
        · cases h

theorem length_readColon_le {c c' : Cursor} (h : readColon c = .ok c') :
    c'.rest.length ≤ c.rest.length := by
  unfold readColon at h
  dsimp only at h
  split at h
  · cases h
  · split at h
    · cases h
      exact c.skipSpace.length_next_le.trans c.length_skipSpace_le
    · cases h

theorem length_readItems_le {α : Type} {read : Cursor → Except Failure (α × Cursor)}
    (hread : ∀ c a c', read c = .ok (a, c') → c'.rest.length ≤ c.rest.length) {steps : Nat}
    {taken items : List α} {c c' : Cursor}
    (h : readItems read steps taken c = .ok (items, c')) : c'.rest.length ≤ c.rest.length := by
  induction steps generalizing taken c with
  | zero => cases h
  | succ steps ih =>
    rcases exists_of_bind_eq_ok h with ⟨⟨more, next⟩, hnext, h⟩
    have hle := length_nextItem_le hnext
    cases more with
    | false =>
      cases h
      exact next.length_next_le.trans hle
    | true =>
      rcases exists_of_bind_eq_ok h with ⟨⟨item, behind⟩, hitem, h⟩
      exact (ih h).trans ((hread _ _ _ hitem).trans hle)

theorem length_readMembers_le {σ : Type} {read : σ → String → Cursor → Except Failure (σ × Cursor)}
    (hread : ∀ s key c s' c', read s key c = .ok (s', c') → c'.rest.length ≤ c.rest.length)
    {steps : Nat} {first : Bool} {s s' : σ} {c c' : Cursor}
    (h : readMembers read steps first s c = .ok (s', c')) : c'.rest.length ≤ c.rest.length := by
  induction steps generalizing first s c with
  | zero => cases h
  | succ steps ih =>
    rcases exists_of_bind_eq_ok h with ⟨⟨key, next⟩, hnext, h⟩
    cases key with
    | none =>
      cases h
      rw [(eq_skipSpace_of_nextKey hnext).1]
      exact c.skipSpace.length_next_le.trans c.length_skipSpace_le
    | some key =>
      rcases exists_of_bind_eq_ok h with ⟨⟨state, behind⟩, hmember, h⟩
      exact (ih h).trans ((hread _ _ _ _ _ hmember).trans (length_nextKey_lt hnext).le)

/-- A value takes at least one character. -/
theorem length_readValue_lt {depth : Nat} {c c' : Cursor} {v : Value}
    (h : readValue depth c = .ok (v, c')) : c'.rest.length < c.rest.length := by
  have hspace := c.length_skipSpace_le
  induction depth generalizing c c' v with
  | zero =>
    unfold readValue at h
    dsimp only at h
    split at h
    · cases h
    · exact (length_readScalar_lt h).trans_le hspace
  | succ depth ih =>
    have hread (c : Cursor) (v : Value) (c' : Cursor) (h : readValue depth c = .ok (v, c')) :
        c'.rest.length ≤ c.rest.length :=
      (ih h c.length_skipSpace_le).le
    unfold readValue at h
    dsimp only at h
    split at h
    · rename_i heq
      rcases exists_of_map_eq_ok h with ⟨_, hitems, heq'⟩
      cases heq'
      exact ((length_readItems_le hread hitems).trans_lt
        (Cursor.length_next_lt heq)).trans_le hspace
    · rename_i heq
      rcases exists_of_map_eq_ok h with ⟨_, hmembers, heq'⟩
      cases heq'
      refine ((length_readMembers_le ?_ hmembers).trans_lt (Cursor.length_next_lt heq)).trans_le
        hspace
      intro s key c s' c' hmember
      rcases exists_of_bind_eq_ok hmember with ⟨_, hcolon, hmember⟩
      rcases exists_of_bind_eq_ok hmember with ⟨⟨value, _⟩, hvalue, hmember⟩
      cases hmember
      exact (hread _ _ _ hvalue).trans (length_readColon_le hcolon)
    · exact (length_readScalar_lt h).trans_le hspace

end GraphFilter.Json
