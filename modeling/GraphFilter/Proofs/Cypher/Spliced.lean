import GraphFilter.Proofs.Cypher.Truth

/-!
# Children without parentheses

A child of a group stands in the text of the group without parentheses, and it may
hold an `OR` of its own.  What the group makes of it depends on two truth values only:
the one in front of that `OR` and the one behind it.  This module compares the value of
a group with the joined values that its children stand for.

Main results:

- Theorem {lit}`View.spliced_eq_joined`: the two agree where a child with an `OR` of
  its own is the only one.
-/

namespace GraphFilter

open GraphFilter.Tree (joiner splice)

/-! ## Views -/

/-- A child as its group sees it: the value in front of its `OR`, the value behind it,
and the value that the child means. -/
structure View where
  front : Option Bool
  back : Option Bool
  meaning : Option Bool

namespace View

/-- The operands that a child adds to its group. -/
def row (v : View) : Row Bool :=
  v.front.toList.map (fun b => (.and, b)) ++ v.back.toList.map fun b => (.or, b)

/-- The value of a child that stands alone. -/
def text (v : View) : Option Bool :=
  Option.merge Joiner.or.apply v.front v.back

/-- Whether a child has an `OR` of its own. -/
def Mixed (v : View) : Prop :=
  v.front ≠ none ∧ v.back ≠ none

/-- The value of the text of a group. -/
def spliced (c : Combinator) (vs : List View) : Option Bool :=
  Row.truth (splice c true (vs.map row))

/-- The value that a group means. -/
def joined (c : Combinator) (vs : List View) : Option Bool :=
  (joiner c false).combine (vs.filterMap meaning)

@[simp]
theorem row_eq_nil {v : View} : v.row = [] ↔ v.text = none := by
  rcases v with ⟨front, back, meaning⟩
  cases front <;> cases back <;> simp [row, text]

@[simp]
theorem truth_row (v : View) : Row.truth v.row = v.text := by
  rcases v with ⟨front, back, meaning⟩
  cases front <;> cases back <;>
    simp [row, text, Row.truth_cons, Levels.read, Levels.holds, Joiner.apply]

theorem spliced_eq_none {c : Combinator} {vs : List View} :
    spliced c vs = none ↔ ∀ v ∈ vs, v.text = none := by
  simp [spliced, Tree.splice_eq_nil_iff]

end View

/-! ## Reading children -/

namespace Levels

/-- Read a child. -/
def take (j : Joiner) (l : Levels) (v : View) : Levels :=
  l.readAll (Row.withJoiner j v.row)

/-- Read the children of a group. -/
def takeAll (c : Combinator) (l : Levels) (vs : List View) : Levels :=
  vs.foldl (take (joiner c false)) l

@[simp]
theorem takeAll_cons (c : Combinator) (l : Levels) (v : View) (vs : List View) :
    l.takeAll c (v :: vs) = (l.take (joiner c false) v).takeAll c vs :=
  rfl

@[simp]
theorem takeAll_append (c : Combinator) (l : Levels) (vs ws : List View) :
    l.takeAll c (vs ++ ws) = (l.takeAll c vs).takeAll c ws :=
  List.foldl_append

theorem takeAll_eq_readAll (c : Combinator) (l : Levels) (vs : List View) :
    l.takeAll c vs =
      l.readAll ((vs.map View.row).flatMap (Row.withJoiner (joiner c false))) := by
  induction vs generalizing l with
  | nil => rfl
  | cons v vs ih =>
    rw [takeAll_cons, ih, List.map_cons, List.flatMap_cons, readAll_append]
    rfl

end Levels

/-- The value of a group with operands is what holds when its children were read. -/
theorem View.spliced_eq_some {c : Combinator} {vs : List View} (h : ∃ v ∈ vs, v.text ≠ none) :
    spliced c vs = some ((Levels.start c).takeAll c vs).holds := by
  have hne : splice c true (vs.map row) ≠ [] := by
    rcases h with ⟨v, hv, htext⟩
    intro hnil
    rw [Tree.splice_eq_nil_iff] at hnil
    exact htext (row_eq_nil.mp (hnil v.row (List.mem_map_of_mem hv)))
  rw [spliced, Tree.truth_splice hne, Levels.takeAll_eq_readAll]

/-! ## Children that are units -/

namespace Levels

/-- Where no disjunction stands in front, and in a conjunctive group no exclusive
disjunction either, the next child is joined to what holds. -/
def Plain (c : Combinator) (l : Levels) : Prop :=
  l.alternatives = false ∧ (c = .and → l.exclusives = false)

theorem plain_start (c : Combinator) : (start c).Plain c :=
  ⟨rfl, fun _ => rfl⟩

theorem plain_read {c : Combinator} {l : Levels} (hl : l.Plain c) (b : Bool) :
    (l.read (joiner c false, b)).Plain c ∧
      (l.read (joiner c false, b)).holds = (joiner c false).apply l.holds b := by
  rcases hl with ⟨halternatives, hexclusives⟩
  cases c with
  | and =>
    refine ⟨⟨halternatives, hexclusives⟩, ?_⟩
    simp [joiner, read, holds, Joiner.apply, halternatives, hexclusives rfl]
  | or =>
    refine ⟨⟨halternatives, ?_⟩, ?_⟩
    · intro hc
      cases hc
    · simp [joiner, read, holds, Joiner.apply, halternatives]

/-- A child without an `OR` of its own is read as one operand. -/
theorem take_of_not_mixed {c : Combinator} {l : Levels} (hl : l.Plain c) {v : View}
    (hv : ¬ v.Mixed) :
    (l.take (joiner c false) v).Plain c ∧
      (l.take (joiner c false) v).holds =
        v.text.toList.foldl (joiner c false).apply l.holds := by
  rcases v with ⟨front, back, meaning⟩
  cases front with
  | none =>
    cases back with
    | none => exact ⟨hl, rfl⟩
    | some b => exact plain_read hl b
  | some a =>
    cases back with
    | none => exact plain_read hl a
    | some b => exact absurd ⟨Option.some_ne_none a, Option.some_ne_none b⟩ hv

/-- So are all children where none has an `OR` of its own. -/
theorem holds_takeAll_of_not_mixed {c : Combinator} {l : Levels} (hl : l.Plain c) {vs : List View}
    (hvs : ∀ v ∈ vs, ¬ v.Mixed) :
    (l.takeAll c vs).holds = (vs.filterMap View.text).foldl (joiner c false).apply l.holds := by
  induction vs generalizing l with
  | nil => rfl
  | cons v vs ih =>
    rcases take_of_not_mixed hl (hvs v (List.mem_cons_self ..)) with ⟨hplain, hholds⟩
    rw [takeAll_cons, ih hplain fun v hv => hvs v (List.mem_cons_of_mem _ hv), hholds]
    cases htext : v.text <;> simp [htext]

end Levels

namespace View

/-- Without children that have an `OR` of their own, the text of a group means the
joined values of its children. -/
theorem spliced_of_not_mixed {c : Combinator} {vs : List View} (hvs : ∀ v ∈ vs, ¬ v.Mixed) :
    spliced c vs = (joiner c false).combine (vs.filterMap text) := by
  by_cases hblank : ∀ v ∈ vs, v.text = none
  · have hnil : vs.filterMap text = [] := List.filterMap_eq_nil_iff.mpr hblank
    rw [spliced_eq_none.mpr hblank, hnil, Joiner.combine_nil]
  · have hne : vs.filterMap text ≠ [] := by
      rw [ne_eq, List.filterMap_eq_nil_iff]
      exact hblank
    have hsome : ∃ v ∈ vs, v.text ≠ none := by
      simpa using hblank
    rw [spliced_eq_some hsome, Joiner.combine_of_ne_nil _ hne,
      Levels.holds_takeAll_of_not_mixed (Levels.plain_start c) hvs, Levels.holds_start]

/-- A child that has the group for itself gives the group its value. -/
theorem spliced_of_alone (c : Combinator) {before behind : List View} (v : View)
    (hblank : ∀ other ∈ before ++ behind, other.text = none) :
    spliced c (before ++ v :: behind) = v.text := by
  have hnil (vs : List View) (hvs : ∀ other ∈ vs, other.text = none) :
      ∀ items ∈ vs.map row, items = [] := by
    intro items hitems
    rcases List.mem_map.mp hitems with ⟨other, hother, rfl⟩
    exact row_eq_nil.mpr (hvs other hother)
  have hbefore := hnil before fun other hmem => hblank other (List.mem_append_left _ hmem)
  have hbehind := hnil behind fun other hmem => hblank other (List.mem_append_right _ hmem)
  rcases Tree.splice_of_nil c true hbefore hbehind v.row with ⟨j, hj⟩
  rw [spliced, List.map_append, List.map_cons, hj, Row.truth_withJoiner, truth_row]

/-- The text of a group means what the group means if each child does, and if no child
with an `OR` of its own stands beside another child. -/
theorem spliced_eq_joined {c : Combinator} {vs : List View}
    (hmeaning : ∀ v ∈ vs, v.text = v.meaning)
    (halone : ∀ before v behind, vs = before ++ v :: behind → v.Mixed →
      ∀ other ∈ before ++ behind, other.text = none) :
    spliced c vs = joined c vs := by
  have hvalues : vs.filterMap meaning = vs.filterMap text :=
    List.filterMap_congr fun v hv => (hmeaning v hv).symm
  rw [joined, hvalues]
  by_cases hmixed : ∀ v ∈ vs, ¬ v.Mixed
  · exact spliced_of_not_mixed hmixed
  · obtain ⟨v, hv, hmix⟩ : ∃ v ∈ vs, v.Mixed := by
      simpa using hmixed
    rcases List.append_of_mem hv with ⟨before, behind, rfl⟩
    have hblank := halone before v behind rfl hmix
    obtain ⟨b, hb⟩ : ∃ b, v.text = some b := by
      rw [← Option.ne_none_iff_exists']
      intro hnone
      rcases Option.ne_none_iff_exists'.mp hmix.1 with ⟨a, ha⟩
      rw [text, ha] at hnone
      cases hback : v.back <;> simp [hback] at hnone
    have hbefore : before.filterMap text = [] := by
      rw [List.filterMap_eq_nil_iff]
      intro other hother
      exact hblank other (List.mem_append_left _ hother)
    have hbehind : behind.filterMap text = [] := by
      rw [List.filterMap_eq_nil_iff]
      intro other hother
      exact hblank other (List.mem_append_right _ hother)
    rw [spliced_of_alone c v hblank, List.filterMap_append, List.filterMap_cons, hb, hbefore,
      hbehind]
    exact (Joiner.combine_singleton _ b).symm

end View

end GraphFilter
