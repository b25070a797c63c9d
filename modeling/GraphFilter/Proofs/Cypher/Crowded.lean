import GraphFilter.Proofs.Cypher.Spliced

/-!
# Groups that hold against their meaning

A child that holds an `OR` of its own takes the rest of its group behind that `OR`, and
leaves what stands in front of it as an alternative to the whole group.  With suitable
truth values of the other children, which keep out of the way, such a group holds
although its meaning is false.

Main results:

- Theorem {lit}`View.spliced_single`: a child decides over its group if the others keep
  out of the way.
- Theorem {lit}`View.spliced_crowded`: a child with an `OR` of its own beside another
  child makes the group hold against its meaning.
-/

namespace GraphFilter

open GraphFilter.Tree (joiner)

namespace View

/-! ## Children that keep out of the way -/

/-- Whether nothing of a child has the truth value. -/
def Avoids (b : Bool) (v : View) : Prop :=
  v.front ≠ some b ∧ v.back ≠ some b ∧ v.meaning ≠ some b

/-- Where nothing of a child is false, its text is true. -/
theorem Avoids.text_eq {v : View} (h : v.Avoids false) (hne : v.text ≠ none) :
    v.text = some true := by
  rcases v with ⟨front, back, meaning⟩
  rcases h with ⟨hfront, hback, -⟩
  cases front with
  | none =>
    cases back with
    | none => exact absurd rfl hne
    | some b => simpa [text] using hback
  | some a =>
    have ha : a = true := by simpa using hfront
    rw [ha, text]
    cases back <;> rfl

/-- A child that leaves the decision over its group to the others. -/
def Neutral (c : Combinator) (v : View) : Prop :=
  v.Avoids (!(joiner c false).unit)

/-- What a neutral child means changes nothing. -/
theorem Neutral.meaning_eq {c : Combinator} {v : View} (h : v.Neutral c) {b : Bool}
    (hb : v.meaning = some b) : b = (joiner c false).unit := by
  have hne : some b ≠ some (!(joiner c false).unit) := hb ▸ h.2.2
  simpa using hne

theorem foldl_meaning_of_neutral {c : Combinator} {vs : List View} (h : ∀ v ∈ vs, v.Neutral c)
    (a : Bool) : (vs.filterMap meaning).foldl (joiner c false).apply a = a := by
  refine Joiner.foldl_apply_of_unit ?_ a
  intro b hb
  rcases List.mem_filterMap.mp hb with ⟨v, hv, hmeaning⟩
  exact (h v hv).meaning_eq hmeaning

end View

namespace Levels

/-- A conjunction that holds goes on holding behind a child that has nothing false. -/
theorem holds_take_of_avoids_false {l : Levels} (hl : l.holds = true) {v : View}
    (h : v.Avoids false) :
    (l.take .and v).holds = true := by
  rcases v with ⟨front, back, meaning⟩
  rcases h with ⟨hfront, hback, -⟩
  cases front with
  | none =>
    cases back with
    | none => exact hl
    | some b =>
      have hb : b = true := by simpa using hback
      change (l.read (.and, b)).holds = true
      rw [hb, read_and_true, hl]
  | some a =>
    have ha : a = true := by simpa using hfront
    cases back with
    | none =>
      change (l.read (.and, a)).holds = true
      rw [ha, read_and_true, hl]
    | some b =>
      change ((l.read (.and, a)).read (.or, b)).holds = true
      rw [ha, read_and_true, holds_read_or, hl, Bool.true_or]

/-- An exclusive disjunction is the same behind a child that has nothing true. -/
theorem holds_take_of_avoids_true (l : Levels) {v : View} (h : v.Avoids true) :
    (l.take .xor v).holds = l.holds := by
  rcases v with ⟨front, back, meaning⟩
  rcases h with ⟨hfront, hback, -⟩
  cases front with
  | none =>
    cases back with
    | none => rfl
    | some b =>
      have hb : b = false := by simpa using hback
      change (l.read (.xor, b)).holds = l.holds
      rw [hb, holds_read_xor_false]
  | some a =>
    have ha : a = false := by simpa using hfront
    cases back with
    | none =>
      change (l.read (.xor, a)).holds = l.holds
      rw [ha, holds_read_xor_false]
    | some b =>
      have hb : b = false := by simpa using hback
      change ((l.read (.xor, a)).read (.or, b)).holds = l.holds
      rw [ha, hb, holds_read_or, holds_read_xor_false, Bool.or_false]

/-- Neutral children keep what holds, in a conjunctive group at least if it does. -/
theorem holds_takeAll_of_neutral {c : Combinator} {l : Levels} (hl : c = .and → l.holds = true)
    {vs : List View} (h : ∀ v ∈ vs, v.Neutral c) : (l.takeAll c vs).holds = l.holds := by
  induction vs generalizing l with
  | nil => rfl
  | cons v vs ih =>
    have hv := h v (List.mem_cons_self ..)
    have hfirst : (l.take (joiner c false) v).holds = l.holds := by
      cases c with
      | and => exact (holds_take_of_avoids_false (hl rfl) hv).trans (hl rfl).symm
      | or => exact holds_take_of_avoids_true l hv
    have hl' : c = .and → (l.take (joiner c false) v).holds = true := by
      intro hc
      rw [hfirst]
      exact hl hc
    rw [takeAll_cons, ih hl' fun v hmem => h v (List.mem_cons_of_mem _ hmem), hfirst]

/-- Before anything is decided, neutral children keep it so. -/
theorem holds_takeAll_start {c : Combinator} {vs : List View} (h : ∀ v ∈ vs, v.Neutral c) :
    ((start c).takeAll c vs).holds = (joiner c false).unit := by
  have hstart : c = .and → (start c).holds = true := by
    rintro rfl
    rfl
  rw [holds_takeAll_of_neutral hstart h, holds_start]

/-! ## Children that decide -/

/-- Where nothing is decided yet, an operand that is true decides. -/
theorem holds_read_true {c : Combinator} {l : Levels} (hl : l.holds = (joiner c false).unit) :
    (l.read (joiner c false, true)).holds = true := by
  cases c with
  | and =>
    rw [joiner, read_and_true]
    exact hl
  | or =>
    simp only [holds, joiner, Joiner.unit, Bool.or_eq_false_iff] at hl
    simp [joiner, read, holds, hl]

/-- So does a child whose own text is true. -/
theorem holds_take_of_text {c : Combinator} {l : Levels}
    (hl : l.holds = (joiner c false).unit) {v : View} (h : v.text = some true) :
    (l.take (joiner c false) v).holds = true := by
  rcases v with ⟨front, back, meaning⟩
  cases front with
  | none =>
    have hb : back = some true := by simpa [View.text] using h
    rw [hb]
    exact holds_read_true hl
  | some a =>
    cases back with
    | none =>
      have ha : a = true := by simpa [View.text] using h
      rw [ha]
      exact holds_read_true hl
    | some b =>
      have hab : a = true ∨ b = true := by simpa [View.text, Joiner.apply] using h
      change ((l.read (joiner c false, a)).read (.or, b)).holds = true
      rw [holds_read_or, Bool.or_eq_true]
      rcases hab with ha | hb
      · rw [ha]
        exact Or.inl (holds_read_true hl)
      · exact Or.inr hb

/-- What stands in front of an `OR`, and is true, decides for good. -/
theorem alternatives_take_of_front {c : Combinator} {l : Levels}
    (hl : l.holds = (joiner c false).unit) {v : View} (hfront : v.front = some true)
    (hback : v.back ≠ none) : (l.take (joiner c false) v).alternatives = true := by
  rcases v with ⟨front, back, meaning⟩
  rcases Option.ne_none_iff_exists'.mp hback with ⟨b, rfl⟩
  have hfront' : front = some true := hfront
  rw [hfront']
  exact holds_read_true hl

/-- What stands behind an `OR`, and is true, decides whatever came before. -/
theorem holds_take_of_back (l : Levels) (j : Joiner) {v : View} (hfront : v.front ≠ none)
    (hback : v.back = some true) : (l.take j v).holds = true := by
  rcases v with ⟨front, back, meaning⟩
  rcases Option.ne_none_iff_exists'.mp hfront with ⟨a, rfl⟩
  have hback' : back = some true := hback
  rw [hback']
  change ((l.read (j, a)).read (.or, true)).holds = true
  rw [holds_read_or, Bool.or_true]

end Levels

/-! ## Groups -/

namespace View

/-- Where nothing of the children is true, nothing of the group is. -/
theorem spliced_of_avoids_true (c : Combinator) {vs : List View} (h : ∀ v ∈ vs, v.Avoids true) :
    spliced c vs ≠ some true ∧ joined c vs ≠ some true := by
  constructor
  · refine Row.truth_ne_true ?_
    intro item hitem
    rcases Tree.mem_splice hitem with ⟨items, hitems, j, hmem⟩
    rcases List.mem_map.mp hitems with ⟨v, hv, rfl⟩
    rcases h v hv with ⟨hfront, hback, -⟩
    have hvalue : v.front = some item.2 ∨ v.back = some item.2 := by
      have hboth : v.front = some item.2 ∧ Joiner.and = j ∨ v.back = some item.2 ∧ Joiner.or = j := by
        simpa [row] using hmem
      exact hboth.imp And.left And.left
    rw [← Bool.not_eq_true]
    intro htrue
    rw [htrue] at hvalue
    rcases hvalue with hvalue | hvalue
    · exact hfront hvalue
    · exact hback hvalue
  · refine Joiner.combine_ne_true ?_
    intro b hb
    rcases List.mem_filterMap.mp hb with ⟨v, hv, hmeaning⟩
    rw [← Bool.not_eq_true]
    rintro rfl
    exact (h v hv).2.2 hmeaning

/-- Among neutral children, a child whose text is true decides over the text of the
group, and its meaning over the meaning of the group. -/
theorem spliced_single {c : Combinator} {before behind : List View} {v : View} {b : Bool}
    (hbefore : ∀ w ∈ before, w.Neutral c) (hbehind : ∀ w ∈ behind, w.Neutral c)
    (htext : v.text = some true) (hmeaning : v.meaning = some b) :
    spliced c (before ++ v :: behind) = some true ∧
      joined c (before ++ v :: behind) = some b := by
  constructor
  · have hsome : ∃ w ∈ before ++ v :: behind, w.text ≠ none := by
      refine ⟨v, List.mem_append_right _ (List.mem_cons_self ..), ?_⟩
      rw [htext]
      exact Option.some_ne_none true
    have hholds := Levels.holds_take_of_text (Levels.holds_takeAll_start hbefore) htext
    rw [spliced_eq_some hsome, Levels.takeAll_append, Levels.takeAll_cons,
      Levels.holds_takeAll_of_neutral (fun _ => hholds) hbehind, hholds]
  · have hne : (before ++ v :: behind).filterMap meaning ≠ [] := by
      rw [List.filterMap_append, List.filterMap_cons, hmeaning]
      simp
    rw [joined, Joiner.combine_of_ne_nil _ hne, List.filterMap_append, List.filterMap_cons,
      hmeaning, List.foldl_append, foldl_meaning_of_neutral hbefore, List.foldl_cons,
      foldl_meaning_of_neutral hbehind, Joiner.unit_apply]

/-- Whether two children decide over the text of their group: the first one in front of
an `OR` of its own, or the second one behind an `OR` of its own. -/
def Overrides (v w : View) : Prop :=
  (v.front = some true ∧ v.back ≠ none) ∨ (w.front ≠ none ∧ w.back = some true)

/-- Among neutral children, two of which one has an `OR` of its own may make the group
hold whatever they mean together. -/
theorem spliced_crowded {c : Combinator} {before between behind : List View} {v w : View}
    {a b : Bool} (hbefore : ∀ u ∈ before, u.Neutral c) (hbetween : ∀ u ∈ between, u.Neutral c)
    (hbehind : ∀ u ∈ behind, u.Neutral c) (hdecides : v.Overrides w)
    (hv : v.meaning = some a) (hw : w.meaning = some b) :
    spliced c (before ++ v :: (between ++ w :: behind)) = some true ∧
      joined c (before ++ v :: (between ++ w :: behind)) = some ((joiner c false).apply a b) := by
  constructor
  · have hsome : ∃ u ∈ before ++ v :: (between ++ w :: behind), u.text ≠ none := by
      rcases hdecides with ⟨hfront, -⟩ | ⟨hfront, -⟩
      · refine ⟨v, by simp, ?_⟩
        rw [text, hfront]
        cases v.back <;> simp
      · refine ⟨w, by simp, ?_⟩
        rcases Option.ne_none_iff_exists'.mp hfront with ⟨x, hx⟩
        rw [text, hx]
        cases w.back <;> simp
    rw [spliced_eq_some hsome, Levels.takeAll_append, Levels.takeAll_cons, Levels.takeAll_append,
      Levels.takeAll_cons]
    rcases hdecides with ⟨hfront, hback⟩ | ⟨hfront, hback⟩
    · have hsettled := Levels.alternatives_take_of_front (Levels.holds_takeAll_start hbefore)
        hfront hback
      simp only [Levels.takeAll_eq_readAll, Levels.take] at hsettled ⊢
      rw [Levels.holds_of_alternatives]
      exact Levels.alternatives_readAll (Levels.alternatives_readAll
        (Levels.alternatives_readAll hsettled _) _) _
    · have hholds (l : Levels) := Levels.holds_take_of_back l (joiner c false) hfront hback
      rw [Levels.holds_takeAll_of_neutral (fun _ => hholds _) hbehind, hholds]
  · have hne : (before ++ v :: (between ++ w :: behind)).filterMap meaning ≠ [] := by
      rw [List.filterMap_append, List.filterMap_cons, hv]
      simp
    rw [joined, Joiner.combine_of_ne_nil _ hne]
    simp only [List.filterMap_append, List.filterMap_cons, hv, hw, List.foldl_append,
      List.foldl_cons, foldl_meaning_of_neutral hbefore, foldl_meaning_of_neutral hbetween,
      foldl_meaning_of_neutral hbehind, Joiner.unit_apply]

end View

end GraphFilter
