import GraphFilter.Proofs.Json.Progress

/-!
# Skipping what can be read

Skipping checks less than reading.  A value that can be read is skipped as well, and both
end at the same place.

Main results:

- Theorem {lit}`skipWithin_of_readValue`: skipping goes on where reading a value ends.
- Theorem {lit}`skipValue_of_readValue`: a value that can be read can be skipped.
-/

namespace GraphFilter.Json

/-! ## Strings -/

/-- One escape by number is skipped in one step. -/
theorem skipChars_of_readHex (steps : Nat) {n : Nat} {c behind : Cursor} {rest rest' : List Char}
    (hslash : c.rest = '\\' :: rest) (hletter : c.next.rest = 'u' :: rest')
    (hhex : readHex c.next.next = .ok (n, behind)) :
    skipChars (steps + 1) c = skipChars steps behind := by
  rw [skipChars]
  simp only [hslash, hletter, hhex]
  rfl

theorem exists_of_expectInPair {expected : Char} {c c' : Cursor}
    (h : expectInPair expected c = .ok c') : (∃ rest, c.rest = expected :: rest) ∧ c' = c.next := by
  unfold expectInPair at h
  split at h
  · cases h
  · rename_i heq
    split at h
    · rename_i hch
      cases h
      exact ⟨⟨_, hch ▸ heq⟩, rfl⟩
    · cases h

/-- An escape is skipped in one or two steps: each half of a surrogate pair is one of its own. -/
theorem exists_skipChars_of_readEscape {steps : Nat} {c behind : Cursor} {ch : Char}
    {rest : List Char} (hslash : c.rest = '\\' :: rest)
    (hescape : readEscape c.next = .ok (ch, behind)) (hsteps : c.rest.length < steps) :
    ∃ steps', behind.rest.length < steps' ∧ skipChars steps c = skipChars steps' behind := by
  have hnext := Cursor.length_next_lt hslash
  obtain ⟨steps, rfl⟩ : ∃ n, steps = n + 1 := Nat.exists_eq_succ_of_ne_zero (by omega)
  have hbehind := length_readEscape_le hescape
  unfold readEscape at hescape
  split at hescape
  · cases hescape
  · rename_i hletter
    rcases exists_of_bind_eq_ok hescape with ⟨⟨high, c₁⟩, hhigh, hescape⟩
    have hfirst := skipChars_of_readHex steps hslash hletter hhigh
    have h₁ := length_readHex_le hhigh
    have hnext' := Cursor.length_next_lt hletter
    dsimp only at hescape
    split at hescape
    · cases hescape
    · split at hescape
      · rcases exists_of_bind_eq_ok hescape with ⟨c₂, hexpect, hescape⟩
        rcases exists_of_expectInPair hexpect with ⟨⟨_, hslash'⟩, rfl⟩
        rcases exists_of_bind_eq_ok hescape with ⟨c₃, hexpect', hescape⟩
        rcases exists_of_expectInPair hexpect' with ⟨⟨_, hletter'⟩, rfl⟩
        rcases exists_of_bind_eq_ok hescape with ⟨⟨low, c₄⟩, hlow, hescape⟩
        obtain ⟨steps, rfl⟩ : ∃ n, steps = n + 1 := Nat.exists_eq_succ_of_ne_zero (by omega)
        have hsecond := skipChars_of_readHex steps hslash' hletter' hlow
        have h₄ := length_readHex_le hlow
        have h₂ := Cursor.length_next_lt hslash'
        have h₃ := Cursor.length_next_lt hletter'
        dsimp only at hescape
        split at hescape
        · have heq : c₄ = behind := congrArg Prod.snd (Except.ok.inj hescape)
          rw [← heq]
          exact ⟨steps, by omega, hfirst.trans hsecond⟩
        · cases hescape
      · have heq : c₁ = behind := congrArg Prod.snd (Except.ok.inj hescape)
        rw [← heq]
        exact ⟨steps, by omega, hfirst⟩
  · rename_i hletter heq
    split at hescape
    · rename_i hplain
      cases hescape
      refine ⟨steps, by omega, ?_⟩
      rw [skipChars]
      simp only [hslash]
      split
      · rename_i hend
        rw [hend] at heq
        cases heq
      · rename_i heq'
        cases heq.symm.trans heq'
        exact (hletter rfl).elim
      · rename_i heq'
        cases heq.symm.trans heq'
        rw [if_pos (by rw [hplain]; rfl)]
    · cases hescape

/-- A string that can be read can be skipped. -/
theorem skipChars_of_readChars {steps steps' : Nat} {taken chars : List Char} {c c' : Cursor}
    (h : readChars steps taken c = .ok (chars, c')) (hsteps : c.rest.length < steps') :
    skipChars steps' c = .ok c' := by
  induction steps generalizing taken c steps' with
  | zero => cases h
  | succ steps ih =>
    obtain ⟨steps', rfl⟩ : ∃ n, steps' = n + 1 := Nat.exists_eq_succ_of_ne_zero (by omega)
    rw [readChars] at h
    split at h
    · cases h
    · rename_i heq
      cases h
      simp only [skipChars, heq]
    · rename_i heq
      rcases exists_of_bind_eq_ok h with ⟨⟨ch, behind⟩, hescape, h⟩
      rcases exists_skipChars_of_readEscape heq hescape hsteps with ⟨steps'', hlt, hskip⟩
      rw [hskip]
      exact ih h hlt
    · rename_i hquote hslash heq
      have hnext := Cursor.length_next_lt heq
      split at h
      · cases h
      · rename_i hcontrol
        rw [skipChars]
        split
        · rename_i hend
          rw [hend] at heq
          cases heq
        · rename_i heq'
          cases heq.symm.trans heq'
          exact (hquote rfl).elim
        · rename_i heq'
          cases heq.symm.trans heq'
          exact (hslash rfl).elim
        · rename_i heq'
          cases heq.symm.trans heq'
          rw [if_neg hcontrol]
          exact ih h (by omega)

theorem skipString_of_readString {c c' : Cursor} {s : String}
    (h : readString c = .ok (s, c')) : skipString c = .ok c' := by
  rcases exists_of_bind_eq_ok h with ⟨⟨chars, behind⟩, hchars, h⟩
  cases h
  exact skipChars_of_readChars hchars (Nat.lt_succ_self _)

/-! ## Numbers and words -/

theorem skipWhole_of_readWhole {c c' : Cursor} {digits : List Char}
    (h : readWhole c = .ok (digits, c')) : skipWhole c = .ok c' := by
  unfold skipWhole
  split
  · rename_i heq
    simp only [readWhole, heq] at h
    cases h
  · rw [h]
    rfl

theorem skipFraction_of_readFraction {c c' : Cursor} {fraction : Option (List Char)}
    (h : readFraction c = .ok (fraction, c')) : skipFraction c = .ok c' := by
  unfold readFraction at h
  split at h
  · rename_i heq
    dsimp only at h
    split at h
    · cases h
    · rename_i hdigits
      cases h
      unfold skipFraction
      simp only [heq, if_neg hdigits]
  · rename_i hpoint
    cases h
    unfold skipFraction
    split
    · rename_i heq
      exact (hpoint _ heq).elim
    · rfl

theorem skipExponent_of_readExponent {c c' : Cursor} {exponent : Option (Bool × List Char)}
    (h : readExponent c = .ok (exponent, c')) : skipExponent c = .ok c' := by
  unfold readExponent at h
  split at h
  · rename_i heq
    cases h
    unfold skipExponent
    simp only [heq]
  · rename_i heq
    split at h
    · rename_i hmark
      cases h
      unfold skipExponent
      simp only [heq, if_pos hmark]
    · rename_i hmark
      dsimp only at h
      split at h
      · cases h
      · rename_i hsign
        split at h
        · rename_i hdigit
          cases h
          unfold skipExponent
          simp only [heq, if_neg hmark, hsign, if_pos hdigit]
        · cases h

theorem skipNumber_of_readNumber {c c' : Cursor} {n : Number}
    (h : readNumber c = .ok (n, c')) : skipNumber c = .ok c' := by
  rcases exists_parts_of_readNumber h with
    ⟨negative, whole, fraction, exponent, c₀, c₁, c₂, hsign, hwhole, hfraction, hexponent, -⟩
  have hrest : (skipWhole c₀ >>= fun c => skipFraction c >>= skipExponent) = .ok c' := by
    rw [skipWhole_of_readWhole hwhole]
    change (skipFraction c₁ >>= skipExponent) = _
    rw [skipFraction_of_readFraction hfraction]
    exact skipExponent_of_readExponent hexponent
  split at hsign
  · rename_i heq
    cases hsign
    unfold skipNumber
    simp only [heq]
    exact hrest
  · rename_i hminus
    cases hsign
    unfold skipNumber
    split
    · rename_i heq
      exact (hminus _ heq).elim
    · exact hrest

/-- A value that is neither an array nor an object is skipped if it can be read. -/
theorem skipScalar_of_readScalar {c c' : Cursor} {v : Value}
    (h : readScalar c = .ok (v, c')) : skipScalar c = .ok c' := by
  unfold readScalar at h
  split at h
  · cases h
  · rename_i heq
    unfold skipScalar
    simp only [heq]
    split at h
    · rename_i hch
      rcases exists_of_map_eq_ok h with ⟨_, hword, heq⟩
      cases heq
      rw [if_pos hch]
      exact hword
    · rename_i hch
      rw [if_neg hch]
      split at h
      · rename_i hch
        rcases exists_of_map_eq_ok h with ⟨_, hword, heq⟩
        cases heq
        rw [if_pos hch]
        exact hword
      · rename_i hch
        rw [if_neg hch]
        split at h
        · rename_i hch
          rcases exists_of_map_eq_ok h with ⟨_, hword, heq⟩
          cases heq
          rw [if_pos hch]
          exact hword
        · rename_i hch
          rw [if_neg hch]
          split at h
          · rename_i hch
            rcases exists_of_map_eq_ok h with ⟨_, hstring, heq⟩
            cases heq
            rw [if_pos hch]
            exact skipString_of_readString hstring
          · rename_i hch
            rw [if_neg hch]
            split at h
            · rename_i hch
              rcases exists_of_map_eq_ok h with ⟨_, hnumber, heq⟩
              cases heq
              rw [if_pos hch]
              exact skipNumber_of_readNumber hnumber
            · cases h

/-! ## Brackets -/

/-- Skip what is left when brackets were closed as far as possible. -/
def skipOpen (steps : Nat) (closed : Except Failure (List Bracket × Cursor)) :
    Except Failure Cursor := do
  let (outer, c) ← closed
  if outer.isEmpty then return c else skipWithin steps outer c

/-- Spaces in front of a value are skipped anyway. -/
theorem skipWithin_skipSpace (steps : Nat) (outer : List Bracket) (c : Cursor) :
    skipWithin (steps + 1) outer c.skipSpace = skipWithin (steps + 1) outer c := by
  rw [skipWithin, skipWithin, Cursor.skipSpace_skipSpace]

theorem skipWithin_list {steps : Nat} {outer : List Bracket} {c : Cursor} {rest : List Char}
    (h : c.skipSpace.rest = '[' :: rest) :
    skipWithin (steps + 1) outer c =
      skipOpen steps (closeBrackets false (.list :: outer) c.skipSpace.next) := by
  rw [skipWithin]
  simp only [h]
  rfl

theorem skipWithin_object {steps : Nat} {outer : List Bracket} {c : Cursor} {rest : List Char}
    (h : c.skipSpace.rest = '\x7b' :: rest) :
    skipWithin (steps + 1) outer c =
      skipOpen steps (closeBrackets false (.object :: outer) c.skipSpace.next) := by
  rw [skipWithin]
  simp only [h]
  rfl

/-- A value that is neither an array nor an object is skipped in one step. -/
theorem skipWithin_scalar {steps : Nat} {outer : List Bracket} {c c' : Cursor} {v : Value}
    (h : readScalar c.skipSpace = .ok (v, c')) :
    skipWithin (steps + 1) outer c = skipOpen steps (closeBrackets true outer c') := by
  have hskip := skipScalar_of_readScalar h
  rw [skipWithin]
  split
  · rename_i heq
    simp only [skipScalar, heq] at hskip
    cases hskip
  · rename_i heq
    simp only [skipScalar, heq] at hskip
    cases hskip
  · rw [hskip]
    rfl

/-- The end of an array closes its bracket. -/
theorem closeBrackets_of_nextItem {first : Bool} {outer : List Bracket} {c c' : Cursor}
    (h : nextItem first c = .ok (false, c')) :
    closeBrackets (!first) (.list :: outer) c = closeBrackets true outer c'.next := by
  rcases eq_skipSpace_of_nextItem h with ⟨rfl, rest, hbracket⟩
  rw [closeBrackets]
  simp only [hbracket]
  rw [if_neg (by simp), if_pos (show ']' = Bracket.list.closer from rfl)]

/-- Another element is found at the same place. -/
theorem exists_closeBrackets_of_nextItem {first : Bool} (outer : List Bracket) {c c' : Cursor}
    (h : nextItem first c = .ok (true, c')) : ∃ item : Cursor, item.skipSpace = c' ∧
      closeBrackets (!first) (.list :: outer) c = .ok (.list :: outer, item) := by
  unfold nextItem at h
  dsimp only at h
  split at h
  · cases h
  · rename_i heq
    rw [closeBrackets]
    simp only [heq]
    split at h
    · cases h
    · rename_i hcloser
      split at h
      · rename_i hfirst
        cases h
        refine ⟨c.skipSpace, c.skipSpace_skipSpace, ?_⟩
        rw [hfirst, if_neg (by simp), if_neg (show ¬_ = Bracket.list.closer from hcloser),
          if_neg (by simp)]
        rfl
      · rename_i hfirst
        split at h
        · rename_i hcomma
          split at h
          · cases h
          · split at h
            · cases h
            · cases h
              refine ⟨c.skipSpace.next, rfl, ?_⟩
              rw [if_pos (by simp [hfirst, hcomma])]
              rfl
        · cases h

/-- The end of an object closes its brace. -/
theorem closeBrackets_of_nextKey {first : Bool} {outer : List Bracket} {c c' : Cursor}
    (h : nextKey first c = .ok (none, c')) :
    closeBrackets (!first) (.object :: outer) c = closeBrackets true outer c'.next := by
  rcases eq_skipSpace_of_nextKey h with ⟨rfl, rest, hbrace⟩
  rw [closeBrackets]
  simp only [hbrace]
  rw [if_neg (by simp), if_pos (show '\x7d' = Bracket.object.closer from rfl)]

/-- A key that can be read is skipped together with the colon. -/
theorem enter_of_readKey {key : String} {c c' value : Cursor}
    (h : readKey c.skipSpace = .ok (some key, c')) (hcolon : readColon c' = .ok value) :
    Bracket.object.enter c = .ok value := by
  unfold readKey at h
  split at h
  · cases h
  · rename_i heq
    unfold Bracket.enter
    simp only [heq]
    split at h
    · rename_i hquote
      rcases exists_of_map_eq_ok h with ⟨⟨_, _⟩, hstring, heq'⟩
      cases heq'
      rw [if_pos hquote, skipString_of_readString hstring]
      exact hcolon
    · split at h <;> cases h

/-- The value of another member is found at the same place. -/
theorem closeBrackets_of_readColon {first : Bool} {key : String} {outer : List Bracket}
    {c c' value : Cursor} (h : nextKey first c = .ok (some key, c'))
    (hcolon : readColon c' = .ok value) :
    closeBrackets (!first) (.object :: outer) c = .ok (.object :: outer, value) := by
  unfold nextKey at h
  dsimp only at h
  split at h
  · cases h
  · rename_i heq
    rw [closeBrackets]
    simp only [heq]
    split at h
    · cases h
    · rename_i hcloser
      split at h
      · rename_i hfirst
        rw [← c.skipSpace_skipSpace] at h
        rw [hfirst, if_neg (by simp), if_neg (show ¬_ = Bracket.object.closer from hcloser),
          if_neg (by simp), enter_of_readKey h hcolon]
        rfl
      · rename_i hfirst
        split at h
        · rename_i hcomma
          rw [if_pos (by simp [hfirst, hcomma]), enter_of_readKey h hcolon]
          rfl
        · cases h

/-! ## Values -/

/-- Skipping goes on where reading a value ends. -/
def Skips (c c' : Cursor) : Prop :=
  ∀ outer steps, c.rest.length < steps → ∃ steps', c'.rest.length < steps' ∧
    skipWithin steps outer c = skipOpen steps' (closeBrackets true outer c')

theorem skips_items {α : Type} {read : Cursor → Except Failure (α × Cursor)}
    (hread : ∀ c a c', read c = .ok (a, c') → Skips c c') {count steps : Nat}
    {taken items : List α} {outer : List Bracket} {c c' : Cursor}
    (h : readItems read count taken c = .ok (items, c')) (hsteps : c.rest.length < steps) :
    ∃ steps', c'.rest.length < steps' ∧
      skipOpen steps (closeBrackets (!taken.isEmpty) (.list :: outer) c) =
        skipOpen steps' (closeBrackets true outer c') := by
  induction count generalizing taken c steps with
  | zero => cases h
  | succ count ih =>
    rcases exists_of_bind_eq_ok h with ⟨⟨more, next⟩, hnext, h⟩
    have hle := length_nextItem_le hnext
    cases more with
    | false =>
      cases h
      have hclose := next.length_next_le
      refine ⟨steps, by omega, ?_⟩
      rw [closeBrackets_of_nextItem hnext]
    | true =>
      rcases exists_of_bind_eq_ok h with ⟨⟨a, behind⟩, hitem, h⟩
      rcases exists_closeBrackets_of_nextItem outer hnext with ⟨item, hspace, hclose⟩
      rcases hread _ _ _ hitem (.list :: outer) steps (by omega) with ⟨steps₁, hlt, hskip⟩
      have hitems : readItems read count (a :: taken) behind = .ok (items, c') := h
      rcases ih hitems hlt with ⟨steps₂, hlt', hrest⟩
      obtain ⟨n, rfl⟩ : ∃ n, steps = n + 1 := Nat.exists_eq_succ_of_ne_zero (by omega)
      refine ⟨steps₂, hlt', ?_⟩
      rw [hclose]
      change skipWithin (n + 1) (.list :: outer) item = _
      rw [← skipWithin_skipSpace, hspace, hskip]
      exact hrest

theorem skips_members {σ : Type} {read : σ → String → Cursor → Except Failure (σ × Cursor)}
    (hread : ∀ s key c s' c', read s key c = .ok (s', c') →
      ∃ value, readColon c = .ok value ∧ Skips value c') {count steps : Nat} {first : Bool}
    {s s' : σ} {outer : List Bracket} {c c' : Cursor}
    (h : readMembers read count first s c = .ok (s', c')) (hsteps : c.rest.length < steps) :
    ∃ steps', c'.rest.length < steps' ∧
      skipOpen steps (closeBrackets (!first) (.object :: outer) c) =
        skipOpen steps' (closeBrackets true outer c') := by
  induction count generalizing first s c steps with
  | zero => cases h
  | succ count ih =>
    rcases exists_of_bind_eq_ok h with ⟨⟨key, next⟩, hnext, h⟩
    cases key with
    | none =>
      cases h
      have hspace : next.rest.length ≤ c.rest.length := by
        rw [(eq_skipSpace_of_nextKey hnext).1]
        exact c.length_skipSpace_le
      have hclose := next.length_next_le
      refine ⟨steps, (hclose.trans hspace).trans_lt hsteps, ?_⟩
      rw [closeBrackets_of_nextKey hnext]
    | some key =>
      rcases exists_of_bind_eq_ok h with ⟨⟨state, behind⟩, hmember, h⟩
      rcases hread _ _ _ _ _ hmember with ⟨value, hcolon, hskips⟩
      have hkey := length_nextKey_lt hnext
      have hle := length_readColon_le hcolon
      rcases hskips (.object :: outer) steps (by omega) with ⟨steps₁, hlt, hskip⟩
      rcases ih h hlt with ⟨steps₂, hlt', hrest⟩
      refine ⟨steps₂, hlt', ?_⟩
      rw [closeBrackets_of_readColon hnext hcolon]
      exact hskip.trans hrest

/-- Skipping goes on where reading a value ends. -/
theorem skipWithin_of_readValue {depth : Nat} {c c' : Cursor} {v : Value}
    (h : readValue depth c = .ok (v, c')) : Skips c c' := by
  have hscalar {c c' : Cursor} {v : Value} (h : readScalar c.skipSpace = .ok (v, c')) :
      Skips c c' := by
    intro outer steps hsteps
    have hlt := length_readScalar_lt h
    have hspace := c.length_skipSpace_le
    obtain ⟨n, rfl⟩ : ∃ n, steps = n + 1 := Nat.exists_eq_succ_of_ne_zero (by omega)
    exact ⟨n, by omega, skipWithin_scalar h⟩
  induction depth generalizing c c' v with
  | zero =>
    unfold readValue at h
    dsimp only at h
    split at h
    · cases h
    · exact hscalar h
  | succ depth ih =>
    have hspace := c.length_skipSpace_le
    unfold readValue at h
    dsimp only at h
    split at h
    · rename_i heq
      intro outer steps hsteps
      have hnext := Cursor.length_next_lt heq
      rcases exists_of_map_eq_ok h with ⟨_, hitems, heq'⟩
      cases heq'
      obtain ⟨n, rfl⟩ : ∃ n, steps = n + 1 := Nat.exists_eq_succ_of_ne_zero (by omega)
      rw [skipWithin_list heq]
      exact skips_items (fun _ _ _ => ih) hitems (by omega)
    · rename_i heq
      intro outer steps hsteps
      have hnext := Cursor.length_next_lt heq
      rcases exists_of_map_eq_ok h with ⟨_, hmembers, heq'⟩
      cases heq'
      obtain ⟨n, rfl⟩ : ∃ n, steps = n + 1 := Nat.exists_eq_succ_of_ne_zero (by omega)
      rw [skipWithin_object heq]
      refine skips_members ?_ hmembers (by omega)
      intro s key c s' c' hmember
      rcases exists_of_bind_eq_ok hmember with ⟨value, hcolon, hmember⟩
      rcases exists_of_bind_eq_ok hmember with ⟨⟨_, _⟩, hvalue, hmember⟩
      cases hmember
      exact ⟨value, hcolon, ih hvalue⟩
    · exact hscalar h

/-- A value that can be read can be skipped. -/
theorem skipValue_of_readValue {depth : Nat} {c c' : Cursor} {v : Value}
    (h : readValue depth c = .ok (v, c')) : skipValue c = .ok c' := by
  rcases skipWithin_of_readValue h [] (c.rest.length + 1) (Nat.lt_succ_self _) with
    ⟨steps, -, hskip⟩
  exact hskip

end GraphFilter.Json
