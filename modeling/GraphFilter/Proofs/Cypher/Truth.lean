import GraphFilter.Proofs.Cypher.Grouping

/-!
# Truth values of rows

With truth values as operands it is enough to keep three of them while a row is read:
the disjunction that is complete, the exclusive disjunction begun last but for its last
operand, and the conjunction begun last.  A level that was not begun is false.

Main results:

- Theorem {lit}`Row.truth_cons`: the value of a row is what holds when it was read.
- Theorem {lit}`truth_splice`: the first child of a group may be read like the others.
-/

namespace GraphFilter

/-! ## Joining truth values -/

namespace Joiner

/-- What a joiner makes of two truth values. -/
def apply : Joiner → Bool → Bool → Bool
  | and, a, b => a && b
  | xor, a, b => a ^^ b
  | or, a, b => a || b

/-- The truth value that changes nothing. -/
def unit : Joiner → Bool
  | and => true
  | xor | or => false

/-- Join truth values, if there are any. -/
def combine (j : Joiner) (bs : List Bool) : Option Bool :=
  if bs.isEmpty then none else some (bs.foldl j.apply j.unit)

@[simp]
theorem unit_apply (j : Joiner) (b : Bool) : j.apply j.unit b = b := by
  cases j <;> simp [apply, unit]

@[simp]
theorem apply_unit (j : Joiner) (b : Bool) : j.apply b j.unit = b := by
  cases j <;> simp [apply, unit]

@[simp]
theorem combine_nil (j : Joiner) : j.combine [] = none :=
  rfl

@[simp]
theorem combine_eq_none {j : Joiner} {bs : List Bool} : j.combine bs = none ↔ bs = [] := by
  cases bs <;> simp [combine]

theorem combine_of_ne_nil (j : Joiner) {bs : List Bool} (h : bs ≠ []) :
    j.combine bs = some (bs.foldl j.apply j.unit) := by
  cases bs with
  | nil => exact absurd rfl h
  | cons b bs => rfl

@[simp]
theorem combine_singleton (j : Joiner) (b : Bool) : j.combine [b] = some b := by
  simp [combine]

/-- A conjunction with one more value behind it, if there is one. -/
theorem combine_and_append (bs : List Bool) (b : Option Bool) :
    and.combine (bs ++ b.toList) = Option.merge and.apply (and.combine bs) b := by
  cases b with
  | none => cases bs <;> simp [combine]
  | some b =>
    cases bs with
    | nil => simp
    | cons a bs => simp [combine]

/-- A conjunction may be begun anywhere. -/
theorem foldl_and (a b : Bool) (bs : List Bool) :
    bs.foldl and.apply (a && b) = (a && bs.foldl and.apply b) := by
  induction bs generalizing b with
  | nil => rfl
  | cons c bs ih =>
    have hassoc : and.apply (a && b) c = (a && and.apply b c) := Bool.and_assoc a b c
    rw [List.foldl_cons, List.foldl_cons, hassoc, ih]

/-- Truth values that change nothing. -/
theorem foldl_apply_of_unit {j : Joiner} {bs : List Bool} (h : ∀ b ∈ bs, b = j.unit) (a : Bool) :
    bs.foldl j.apply a = a := by
  induction bs generalizing a with
  | nil => rfl
  | cons b bs ih =>
    have hb := h b (List.mem_cons_self ..)
    rw [List.foldl_cons, hb, apply_unit]
    exact ih (fun b hmem => h b (List.mem_cons_of_mem _ hmem)) a

/-- Where nothing is true, nothing is joined to something true. -/
theorem combine_ne_true {j : Joiner} {bs : List Bool} (h : ∀ b ∈ bs, b = false) :
    j.combine bs ≠ some true := by
  have hfold (bs : List Bool) (h : ∀ b ∈ bs, b = false) : bs.foldl j.apply false = false := by
    induction bs with
    | nil => rfl
    | cons b bs ih =>
      have hfirst : j.apply false b = false := by
        rw [h b (List.mem_cons_self ..)]
        cases j <;> rfl
      rw [List.foldl_cons, hfirst]
      exact ih fun b hb => h b (List.mem_cons_of_mem _ hb)
  cases bs with
  | nil => simp
  | cons b bs =>
    rw [combine_of_ne_nil _ (List.cons_ne_nil b bs), List.foldl_cons, unit_apply,
      h b (List.mem_cons_self ..), hfold bs fun b hb => h b (List.mem_cons_of_mem _ hb)]
    simp

/-! ### Values that may be missing -/

/-- A truth value that is there and is not the one is the other. -/
theorem eq_some_of_ne {x : Option Bool} {b : Bool} (hnone : x ≠ none) (hne : x ≠ some !b) :
    x = some b := by
  cases x with
  | none => exact absurd rfl hnone
  | some a => simpa using hne

theorem and_ne_xor : Joiner.and ≠ .xor := by
  decide

theorem or_ne_xor : Joiner.or ≠ .xor := by
  decide

/-- Joining with `AND` or `OR` brings in no new truth value. -/
theorem merge_ne {j : Joiner} (hj : j ≠ .xor) {b : Bool} {x y : Option Bool} (hx : x ≠ some b)
    (hy : y ≠ some b) : Option.merge j.apply x y ≠ some b := by
  cases x with
  | none => simpa using hy
  | some x =>
    cases y with
    | none => simpa using hx
    | some y => cases j <;> cases b <;> simp_all [apply]

theorem merge_comm (j : Joiner) (x y : Option Bool) :
    Option.merge j.apply x y = Option.merge j.apply y x := by
  cases x with
  | none => cases y <;> rfl
  | some x =>
    cases y with
    | none => rfl
    | some y => cases j <;> cases x <;> cases y <;> rfl

/-- What is the same without a truth value, is not changed by its absence. -/
theorem merge_unit {j : Joiner} {x : Option Bool} (hx : x ≠ some !j.unit) :
    Option.merge j.apply x (some j.unit) = some j.unit := by
  cases x with
  | none => rfl
  | some x =>
    have hunit : x = j.unit := by simpa using hx
    rw [hunit, Option.merge_some_some, unit_apply]

/-- One alternative that holds, or one conjunct that does not, is enough. -/
theorem merge_not_unit {j : Joiner} (hj : j ≠ .xor) (x : Option Bool) :
    Option.merge j.apply x (some !j.unit) = some !j.unit := by
  cases x with
  | none => rfl
  | some x => cases j <;> cases x <;> simp_all [apply, unit]

/-- Leaves that all have the other truth value. -/
theorem combine_const_ne {β : Type} (as : List β) (b : Bool) :
    and.combine (as.map fun _ => !b) ≠ some b := by
  cases b with
  | true => exact combine_ne_true (by simp)
  | false =>
    by_cases hnil : as.map (fun _ => !false) = []
    · rw [hnil]
      simp
    · rw [combine_of_ne_nil _ hnil, foldl_apply_of_unit (by simp [unit])]
      simp [unit]

end Joiner

/-! ## Reading a row of truth values -/

/-- The truth values of the three levels of precedence. -/
structure Levels where
  alternatives : Bool
  exclusives : Bool
  conjuncts : Bool

namespace Levels

/-- Whether what was read holds if nothing follows. -/
def holds (l : Levels) : Bool :=
  l.alternatives || (l.exclusives ^^ l.conjuncts)

/-- Read one more operand. -/
def read (l : Levels) : Joiner × Bool → Levels
  | (.and, b) => { l with conjuncts := l.conjuncts && b }
  | (.xor, b) => { l with exclusives := l.exclusives ^^ l.conjuncts, conjuncts := b }
  | (.or, b) => ⟨l.holds, false, b⟩

/-- Read the rest of a row. -/
def readAll (l : Levels) (row : Row Bool) : Levels :=
  row.foldl read l

@[simp]
theorem readAll_nil (l : Levels) : l.readAll [] = l :=
  rfl

@[simp]
theorem readAll_cons (l : Levels) (item : Joiner × Bool) (row : Row Bool) :
    l.readAll (item :: row) = (l.read item).readAll row :=
  rfl

@[simp]
theorem readAll_append (l : Levels) (first second : Row Bool) :
    l.readAll (first ++ second) = (l.readAll first).readAll second :=
  List.foldl_append

@[simp]
theorem read_and_true (l : Levels) : l.read (.and, true) = l := by
  simp [read]

@[simp]
theorem holds_read_xor_false (l : Levels) : (l.read (.xor, false)).holds = l.holds := by
  simp [read, holds]

@[simp]
theorem holds_read_or (l : Levels) (b : Bool) : (l.read (.or, b)).holds = (l.holds || b) := by
  simp [read, holds]

theorem holds_of_alternatives {l : Levels} (h : l.alternatives = true) : l.holds = true := by
  simp [holds, h]

/-- A disjunction that holds is never given up. -/
theorem alternatives_readAll {l : Levels} (h : l.alternatives = true) (row : Row Bool) :
    (l.readAll row).alternatives = true := by
  induction row generalizing l with
  | nil => exact h
  | cons item row ih =>
    rcases item with ⟨j, b⟩
    refine ih ?_
    cases j with
    | and => exact h
    | xor => exact h
    | or => exact holds_of_alternatives h

/-- Operands behind `AND` add to the conjunction. -/
theorem readAll_and (l : Levels) (bs : List Bool) :
    l.readAll (bs.map fun b => (.and, b)) =
      { l with conjuncts := bs.foldl Joiner.and.apply l.conjuncts } := by
  induction bs generalizing l with
  | nil => rfl
  | cons b bs ih =>
    rw [List.map_cons, readAll_cons, ih]
    rfl

end Levels

namespace Reading

/-- The truth values of what was read. -/
def levels (r : Reading Bool) : Levels :=
  ⟨r.alternatives.getD false, r.exclusives.getD false, r.conjuncts⟩

theorem close_eq_holds (r : Reading Bool) : r.close Joiner.apply = r.levels.holds := by
  rcases r with ⟨alternatives, exclusives, conjuncts⟩
  cases alternatives <;> cases exclusives <;>
    simp [close, closeExclusives, behind, levels, Levels.holds, Joiner.apply]

theorem levels_push (r : Reading Bool) (item : Joiner × Bool) :
    (r.push Joiner.apply item).levels = r.levels.read item := by
  rcases item with ⟨j, b⟩
  cases j with
  | and => rfl
  | xor =>
    rcases r with ⟨alternatives, exclusives, conjuncts⟩
    cases exclusives <;> simp [push, closeExclusives, behind, levels, Levels.read, Joiner.apply]
  | or =>
    have hclose := r.close_eq_holds
    rw [push, levels, Option.getD_some, hclose]
    rfl

theorem levels_pushAll (r : Reading Bool) (row : Row Bool) :
    (r.pushAll Joiner.apply row).levels = r.levels.readAll row := by
  induction row generalizing r with
  | nil => rfl
  | cons item row ih => rw [pushAll_cons, ih, levels_push, Levels.readAll_cons]

end Reading

namespace Row

/-- The truth value of a row, if it has operands. -/
def truth (row : Row Bool) : Option Bool :=
  value Joiner.apply row

@[simp]
theorem truth_nil : truth [] = none :=
  rfl

@[simp]
theorem truth_eq_none {row : Row Bool} : truth row = none ↔ row = [] :=
  value_eq_none Joiner.apply

@[simp]
theorem truth_withJoiner (j : Joiner) (row : Row Bool) : truth (withJoiner j row) = truth row :=
  value_withJoiner Joiner.apply j row

/-- The value of a row is what holds when it was read. -/
theorem truth_cons (item : Joiner × Bool) (rest : Row Bool) :
    truth (item :: rest) = some ((Levels.mk false false item.2).readAll rest).holds := by
  rw [truth, value, Reading.close_eq_holds, Reading.levels_pushAll]
  rfl

/-- Where no operand is true, the row is not. -/
theorem truth_ne_true {row : Row Bool} (h : ∀ item ∈ row, item.2 = false) :
    truth row ≠ some true := by
  have hread (row : Row Bool) (h : ∀ item ∈ row, item.2 = false) :
      (Levels.mk false false false).readAll row = ⟨false, false, false⟩ := by
    induction row with
    | nil => rfl
    | cons item row ih =>
      rcases item with ⟨j, b⟩
      have hb : b = false := h (j, b) (List.mem_cons_self ..)
      have hfirst : (Levels.mk false false false).read (j, b) = ⟨false, false, false⟩ := by
        rw [hb]
        cases j <;> rfl
      rw [Levels.readAll_cons, hfirst]
      exact ih fun item hitem => h item (List.mem_cons_of_mem _ hitem)
  cases row with
  | nil => simp
  | cons item row =>
    rw [truth_cons, h item (List.mem_cons_self ..),
      hread row fun item hitem => h item (List.mem_cons_of_mem _ hitem)]
    simp [Levels.holds]

end Row

/-! ## Rows that are read alike -/

/-- Whether two rows cannot be told apart behind any joiner. -/
def Row.Alike (row row' : Row Bool) : Prop :=
  (row = [] ↔ row' = []) ∧
    ∀ (l : Levels) (j : Joiner),
      l.readAll (Row.withJoiner j row) = l.readAll (Row.withJoiner j row')

/-- Operands behind `AND` in front of a row are read like their conjunction. -/
theorem Row.alike_combine (bs : List Bool) (rest : Row Bool) :
    Row.Alike (bs.map (fun b => (.and, b)) ++ rest)
      ((Joiner.and.combine bs).toList.map (fun b => (.and, b)) ++ rest) := by
  cases bs with
  | nil => exact ⟨Iff.rfl, fun _ _ => rfl⟩
  | cons b bs =>
    have hcombine : Joiner.and.combine (b :: bs) = some (bs.foldl Joiner.and.apply b) := by
      rw [Joiner.combine_of_ne_nil _ (List.cons_ne_nil b bs), List.foldl_cons, Joiner.unit_apply]
    have hread (l : Levels) (j : Joiner) :
        (l.read (j, b)).readAll (bs.map fun b => (.and, b)) =
          l.read (j, bs.foldl Joiner.and.apply b) := by
      rw [Levels.readAll_and]
      cases j with
      | and => rw [Levels.read, Levels.read, Joiner.foldl_and]
      | xor => rfl
      | or => rfl
    rw [hcombine]
    refine ⟨by simp, ?_⟩
    intro l j
    simp only [List.map_cons, List.cons_append, Row.withJoiner, Option.toList_some,
      Levels.readAll_cons, Levels.readAll_append, hread, List.map_nil, Levels.readAll_nil]

/-- Rows that are read alike have the same value. -/
theorem Row.Alike.truth_eq {row row' : Row Bool} (h : row.Alike row') : truth row = truth row' := by
  have hread := h.2 ⟨false, false, true⟩ .and
  cases row with
  | nil => rw [h.1.mp rfl]
  | cons item rest =>
    cases row' with
    | nil => exact absurd (h.1.mpr rfl) (List.cons_ne_nil item rest)
    | cons item' rest' =>
      rw [truth_cons, truth_cons]
      simp only [withJoiner, Levels.readAll_cons, Levels.read, Bool.true_and] at hread
      rw [hread]

/-! ## Splicing -/

namespace Levels

/-- What is kept in front of the first child of a group. -/
def start (c : Combinator) : Levels :=
  ⟨false, false, (Tree.joiner c false).unit⟩

@[simp]
theorem holds_start (c : Combinator) : (start c).holds = (Tree.joiner c false).unit := by
  simp [start, holds]

/-- In front of the first child stands a conjunction that changes nothing, or an
exclusive disjunction that does not hold. -/
theorem read_start (c : Combinator) (first b : Bool) :
    (start c).read (Tree.joiner c first, b) = ⟨false, false, b⟩ := by
  cases c <;> cases first <;> simp [start, read, holds, Tree.joiner, Joiner.unit]

end Levels

namespace Tree

/-- Behind the first child the joiners are all the same. -/
theorem splice_false {β : Type} (c : Combinator) (rows : List (Row β)) :
    splice c false rows = rows.flatMap (Row.withJoiner (joiner c false)) := by
  induction rows with
  | nil => rfl
  | cons row rest ih => rw [splice, ih, List.flatMap_cons]

theorem splice_eq_nil_iff {β : Type} {c : Combinator} {first : Bool} {rows : List (Row β)} :
    splice c first rows = [] ↔ ∀ row ∈ rows, row = [] := by
  induction rows generalizing first with
  | nil => simp [splice]
  | cons row rest ih => simp [splice, ih]

/-- The operands of a group are those of its children. -/
theorem mem_splice {c : Combinator} {first : Bool} {rows : List (Row Bool)}
    {item : Joiner × Bool} (h : item ∈ splice c first rows) :
    ∃ row ∈ rows, ∃ j, (j, item.2) ∈ row := by
  induction rows generalizing first with
  | nil => simp [splice] at h
  | cons row rows ih =>
    rw [splice, List.mem_append] at h
    rcases h with h | h
    · refine ⟨row, List.mem_cons_self .., ?_⟩
      cases row with
      | nil => simp [Row.withJoiner] at h
      | cons head row =>
        rw [Row.withJoiner, List.mem_cons] at h
        rcases h with h | h
        · exact ⟨head.1, by simp [h]⟩
        · exact ⟨item.1, List.mem_cons_of_mem _ h⟩
    · rcases ih h with ⟨row', hrow', hitem⟩
      exact ⟨row', List.mem_cons_of_mem _ hrow', hitem⟩

/-- The first child of a group may be read like the others. -/
theorem truth_splice {c : Combinator} {first : Bool} {rows : List (Row Bool)}
    (h : splice c first rows ≠ []) :
    Row.truth (splice c first rows) =
      some ((Levels.start c).readAll (rows.flatMap (Row.withJoiner (joiner c false)))).holds := by
  induction rows generalizing first with
  | nil => exact absurd rfl h
  | cons row rest ih =>
    cases row with
    | nil => exact ih h
    | cons item row =>
      have hsplice : splice c first ((item :: row) :: rest) =
          (joiner c first, item.2) :: (row ++ splice c false rest) := rfl
      have hflat : ((item :: row) :: rest).flatMap (Row.withJoiner (joiner c false)) =
          (joiner c false, item.2) :: (row ++ splice c false rest) := by
        rw [splice_false]
        rfl
      rw [hsplice, hflat, Row.truth_cons, Levels.readAll_cons, Levels.read_start]

/-- Children that are read alike make groups of the same value. -/
theorem truth_splice_congr {c : Combinator} {first : Bool} {rows rows' : List (Row Bool)}
    (h : List.Forall₂ Row.Alike rows rows') :
    Row.truth (splice c first rows) = Row.truth (splice c first rows') := by
  have hnil : splice c first rows = [] ↔ splice c first rows' = [] := by
    rw [splice_eq_nil_iff, splice_eq_nil_iff]
    induction h with
    | nil => simp
    | cons hfirst _ ih => simp [hfirst.1, ih]
  have hread (l : Levels) : l.readAll (rows.flatMap (Row.withJoiner (joiner c false))) =
      l.readAll (rows'.flatMap (Row.withJoiner (joiner c false))) := by
    clear hnil
    induction h generalizing l with
    | nil => rfl
    | cons hfirst _ ih =>
      rw [List.flatMap_cons, List.flatMap_cons, Levels.readAll_append, Levels.readAll_append,
        hfirst.2, ih]
  by_cases hempty : splice c first rows = []
  · rw [hempty, hnil.mp hempty]
  · have hempty' : splice c first rows' ≠ [] := fun heq => hempty (hnil.mpr heq)
    rw [truth_splice hempty, truth_splice hempty', hread]

/-- A child among children without operands is the whole group. -/
theorem splice_of_nil {β : Type} (c : Combinator) (first : Bool) {before behind : List (Row β)}
    (hbefore : ∀ row ∈ before, row = []) (hbehind : ∀ row ∈ behind, row = []) (row : Row β) :
    ∃ j, splice c first (before ++ row :: behind) = Row.withJoiner j row := by
  induction before generalizing first with
  | nil =>
    refine ⟨joiner c first, ?_⟩
    have hnil : splice c false behind = [] := splice_eq_nil_iff.mpr hbehind
    rw [List.nil_append, splice, hnil, List.append_nil]
  | cons blank before ih =>
    have hblank := hbefore blank (List.mem_cons_self ..)
    rcases ih false fun row hrow => hbefore row (List.mem_cons_of_mem _ hrow) with ⟨j, hj⟩
    refine ⟨j, ?_⟩
    rw [List.cons_append, splice, hblank, hj]
    rfl

end Tree

end GraphFilter
