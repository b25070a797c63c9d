import GraphFilter.Proofs.Cypher.Crowded
import GraphFilter.Proofs.Tree.Meaning

/-!
# Trees whose text holds against their meaning

If a mixed child stands beside another child with leaves, the leaves of the tree can be
given truth values such that its text is true and its meaning false.  The truth values
are chosen from the bottom up: each tree can be made neutral for the group that it is a
child of, and what its group sees of it then is all that matters.

Main results:

- Theorem {lit}`canShow_avoids`: each tree can avoid each truth value, and so be neutral in
  its group.
- Theorem {lit}`exists_overstated`: a tree that is not separated can be made true in its
  text and false in its meaning.
- Theorem {lit}`forall_truth_eq_meaning_iff`: so text and meaning always agree exactly for
  separated trees.
-/

namespace GraphFilter.Tree

variable {α : Type}

/-! ## Choosing truth values -/

/-- Whether the leaves of a tree can be given truth values such that its group sees what
is asked for. -/
def CanShow (t : Tree α) (p : View → Prop) : Prop :=
  ∃ s : Tree Bool, SameShape s t ∧ p (view s)

/-- Whether the leaves of the children of a group can be given truth values such that
the values of its text and of its meaning are as asked for. -/
def CanGive (c : Combinator) (members : List (Tree α)) (p : Option Bool → Option Bool → Prop) :
    Prop :=
  ∃ ss : List (Tree Bool), List.Forall₂ SameShape ss members ∧
    p (groupTruth c ss) (groupMeaning c ss)

/-- The truth values of the children may be chosen one by one. -/
theorem exists_forall₂_of_canShow {members : List (Tree α)} {p : View → Prop}
    (h : ∀ child ∈ members, CanShow child p) :
    ∃ ss : List (Tree Bool), List.Forall₂ SameShape ss members ∧ ∀ v ∈ ss.map view, p v := by
  induction members with
  | nil => exact ⟨[], List.Forall₂.nil, by simp⟩
  | cons child members ih =>
    rcases h child (List.mem_cons_self ..) with ⟨s, hshape, hs⟩
    rcases ih fun child hchild => h child (List.mem_cons_of_mem _ hchild) with ⟨ss, hshapes, hss⟩
    refine ⟨s :: ss, List.Forall₂.cons hshape hshapes, ?_⟩
    rw [List.map_cons, List.forall_mem_cons]
    exact ⟨hs, hss⟩

theorem single_of_forall₂ {members : List (Tree α)} (h : ∀ child ∈ members, SingleGroups child)
    {ss : List (Tree Bool)} (hshapes : List.Forall₂ SameShape ss members) :
    ∀ s ∈ ss, SingleGroups s := by
  induction hshapes with
  | nil => simp
  | cons hfirst _ ih =>
    rw [List.forall_mem_cons] at h ⊢
    exact ⟨h.1.of_sameShape hfirst, ih h.2⟩

/-- Truth values for the leaves at the top and for the children make truth values for
the tree. -/
theorem canShow_of_canGive {t : Tree α} (b : Bool) {p q : Option Bool → Option Bool → Prop}
    (hand : CanGive .and (children .and t) p) (hor : CanGive .or (children .or t) q) :
    ∃ s : Tree Bool, SameShape s t ∧ topLeaves s = (topLeaves t).map (fun _ => b) ∧
      p (groupTruth .and (children .and s)) (groupMeaning .and (children .and s)) ∧
      q (groupTruth .or (children .or s)) (groupMeaning .or (children .or s)) := by
  rcases hand with ⟨ss, hss, hp⟩
  rcases hor with ⟨rs, hrs, hq⟩
  have hmembers (c : Combinator) :
      List.Forall₂ SameShape (if c = .and then ss else rs) (children c t) := by
    cases c with
    | and => exact hss
    | or => exact hrs
  have hlength : ((topLeaves t).map fun _ => b).length = (topLeaves t).length := List.length_map _
  rcases exists_assemble t hlength hmembers with ⟨s, hshape, htops, hchildren⟩
  refine ⟨s, hshape, htops, ?_, ?_⟩
  · rw [hchildren]
    exact hp
  · rw [hchildren]
    exact hq

/-! ## Truth values of a group -/

section
variable {t child : Tree α} {members before behind : List (Tree α)}

/-- A tree with leaves says something. -/
theorem view_ne_none {s : Tree Bool} (hshape : SameShape s t) (h : SingleGroups t)
    (hne : textLeaves t ≠ []) : (view s).text ≠ none ∧ (view s).meaning ≠ none := by
  have hsingle := h.of_sameShape hshape
  have hleaves : textLeaves s ≠ [] := mt hshape.textLeaves_eq_nil_iff.mp hne
  constructor
  · rw [← truth_eq_text hsingle, ne_eq, truth_eq_none hsingle]
    exact hleaves
  · exact mt meaning_eq_none.mp hleaves

/-- Among neutral children, one child decides over text and meaning of the group. -/
theorem canGive_of_single {c : Combinator} {p : View → Prop} {b : Bool}
    (h : ∀ other ∈ before ++ child :: behind, SingleGroups other)
    (hneutral : ∀ other ∈ before ++ behind, CanShow other (View.Neutral c))
    (hchild : CanShow child p) (hp : ∀ v, p v → v.text = some true ∧ v.meaning = some b) :
    CanGive c (before ++ child :: behind) fun x y => x = some true ∧ y = some b := by
  rw [List.forall_mem_append] at hneutral
  rcases exists_forall₂_of_canShow hneutral.1 with ⟨first, hfirst, hfirst'⟩
  rcases exists_forall₂_of_canShow hneutral.2 with ⟨last, hlast, hlast'⟩
  rcases hchild with ⟨s, hshape, hs⟩
  have hshapes : List.Forall₂ SameShape (first ++ s :: last) (before ++ child :: behind) :=
    List.rel_append hfirst (List.Forall₂.cons hshape hlast)
  refine ⟨first ++ s :: last, hshapes, ?_⟩
  rw [groupTruth_eq_spliced (single_of_forall₂ h hshapes), ← joined_view, List.map_append,
    List.map_cons]
  rcases hp _ hs with ⟨htext, hmeaning⟩
  exact View.spliced_single hfirst' hlast' htext hmeaning

/-- If its children can avoid a truth value, a group can. -/
theorem canGive_avoids (c : Combinator) (h : ∀ child ∈ members, SingleGroups child)
    (havoids : ∀ b, ∀ child ∈ members, CanShow child (View.Avoids b)) (b : Bool) :
    CanGive c members fun x y => x ≠ some b ∧ y ≠ some b := by
  cases b with
  | true =>
    rcases exists_forall₂_of_canShow (havoids true) with ⟨ss, hshapes, hss⟩
    refine ⟨ss, hshapes, ?_⟩
    rw [groupTruth_eq_spliced (single_of_forall₂ h hshapes), ← joined_view]
    exact View.spliced_of_avoids_true c hss
  | false =>
    by_cases hblank : ∀ child ∈ members, textLeaves child = []
    · rcases exists_forall₂_of_canShow (havoids false) with ⟨ss, hshapes, -⟩
      have hleaves : ∀ s ∈ ss, textLeaves s = [] := by
        clear havoids h
        induction hshapes with
        | nil => simp
        | cons hfirst _ ih =>
          rw [List.forall_mem_cons] at hblank ⊢
          exact ⟨hfirst.textLeaves_eq_nil_iff.mpr hblank.1, ih hblank.2⟩
      have htruth : groupTruth c ss = none := by
        rw [groupTruth_eq_none_iff (single_of_forall₂ h hshapes), List.flatMap_eq_nil_iff]
        exact hleaves
      have hmeaning : groupMeaning c ss = none := by
        rw [groupMeaning_eq_none]
        exact fun s hs => meaning_eq_none.mpr (hleaves s hs)
      refine ⟨ss, hshapes, ?_⟩
      rw [htruth, hmeaning]
      simp
    · -- one child with leaves is true, the others keep out of the way
      obtain ⟨child, hchild, hne⟩ : ∃ child ∈ members, textLeaves child ≠ [] := by
        simpa using hblank
      rcases List.append_of_mem hchild with ⟨before, behind, rfl⟩
      rcases havoids false child hchild with ⟨s, hshape, hs⟩
      rcases view_ne_none hshape (h child hchild) hne with ⟨htext, hmeaning⟩
      have hshow : CanShow child fun v => v.text = some true ∧ v.meaning = some true :=
        ⟨s, hshape, hs.text_eq htext, Joiner.eq_some_of_ne hmeaning hs.2.2⟩
      have hneutral : ∀ other ∈ before ++ behind, CanShow other (View.Neutral c) := by
        intro other hother
        exact havoids _ other (mem_of_mem_siblings hother)
      rcases canGive_of_single h hneutral hshow fun _ hv => hv with ⟨ss, hshapes, hgroup⟩
      refine ⟨ss, hshapes, ?_⟩
      rw [hgroup.1, hgroup.2]
      simp

end

/-! ## Truth values of a tree -/

/-- Each tree can avoid each truth value. -/
theorem canShow_avoids {t : Tree α} (h : SingleGroups t) (b : Bool) :
    CanShow t (View.Avoids b) := by
  induction t using induction generalizing b with
  | step t ih =>
    have hgroup (c : Combinator) :
        CanGive c (children c t) fun x y => x ≠ some b ∧ y ≠ some b := by
      refine canGive_avoids c (fun child => h.of_mem_children) ?_ b
      exact fun b child hchild => ih c child hchild (h.of_mem_children hchild) b
    rcases canShow_of_canGive (!b) (hgroup .and) (hgroup .or) with ⟨s, hshape, htops, hand, hor⟩
    have hleaves : Joiner.and.combine (topLeaves s) ≠ some b := by
      rw [htops]
      exact Joiner.combine_const_ne _ b
    have hfront := Joiner.merge_ne Joiner.and_ne_xor hleaves hand.1
    have hmeaning := Joiner.merge_ne Joiner.and_ne_xor hleaves hand.2
    refine ⟨s, hshape, hfront, hor.1, ?_⟩
    rw [view, meaning_eq]
    exact Joiner.merge_ne Joiner.or_ne_xor hmeaning hor.2

/-- If a group can be true in its text and false in its meaning, so can the tree. -/
theorem exists_overstated_of_group {t : Tree α} (h : SingleGroups t) {c : Combinator}
    (hgroup : CanGive c (children c t) fun x y => x = some true ∧ y = some false) :
    CanShow t fun v => v.text = some true ∧ v.meaning = some false := by
  have hother (d : Combinator) : CanGive d (children d t) fun x y => x ≠ some true ∧ y ≠ some true :=
    canGive_avoids d (fun child => h.of_mem_children)
      (fun b child hchild => canShow_avoids (h.of_mem_children hchild) b) true
  have htext (s : Tree Bool) : (view s).text = Option.merge Joiner.or.apply
      (Option.merge Joiner.and.apply (Joiner.and.combine (topLeaves s))
        (groupTruth .and (children .and s))) (groupTruth .or (children .or s)) := rfl
  have hmeaning (s : Tree Bool) : (view s).meaning = Option.merge Joiner.or.apply
      (Option.merge Joiner.and.apply (Joiner.and.combine (topLeaves s))
        (groupMeaning .and (children .and s))) (groupMeaning .or (children .or s)) := meaning_eq s
  cases c with
  | and =>
    -- the leaves leave the decision to the group, and there is no other alternative
    rcases canShow_of_canGive true hgroup (hother .or) with ⟨s, hshape, htops, hand, hor⟩
    have hleaves : Joiner.and.combine (topLeaves s) ≠ some false := by
      rw [htops]
      exact Joiner.combine_const_ne _ false
    refine ⟨s, hshape, ?_, ?_⟩
    · have hfront : Option.merge Joiner.and.apply (Joiner.and.combine (topLeaves s)) (some true) =
          some true := Joiner.merge_unit hleaves
      rw [htext, hand.1, hfront, Joiner.merge_comm]
      exact Joiner.merge_not_unit Joiner.or_ne_xor _
    · have hfront : Option.merge Joiner.and.apply (Joiner.and.combine (topLeaves s)) (some false) =
          some false := Joiner.merge_not_unit Joiner.and_ne_xor _
      rw [hmeaning, hand.2, hfront, Joiner.merge_comm]
      exact Joiner.merge_unit (j := .or) hor.2
  | or =>
    rcases canShow_of_canGive false (hother .and) hgroup with ⟨s, hshape, htops, hand, hor⟩
    have hleaves : Joiner.and.combine (topLeaves s) ≠ some true := by
      rw [htops]
      exact Joiner.combine_const_ne _ true
    refine ⟨s, hshape, ?_, ?_⟩
    · rw [htext, hor.1]
      exact Joiner.merge_not_unit Joiner.or_ne_xor _
    · have hfront := Joiner.merge_ne Joiner.and_ne_xor hleaves hand.2
      rw [hmeaning, hor.2]
      exact Joiner.merge_unit (j := .or) hfront

/-! ## Crowded groups -/

section
variable {t child other : Tree α} {c : Combinator}

/-- Two children, one of which is mixed, can decide over the text of a group together and
against its meaning. -/
theorem canGive_of_two {before between behind : List (Tree α)} {first second : Tree α}
    {p q : View → Prop}
    (h : ∀ sibling ∈ before ++ first :: (between ++ second :: behind), SingleGroups sibling)
    (hfirst : CanShow first p) (hsecond : CanShow second q)
    (hpair : ∀ v w, p v → q w → v.Overrides w ∧ ∃ a b, v.meaning = some a ∧ w.meaning = some b ∧
      (joiner c false).apply a b = false) :
    CanGive c (before ++ first :: (between ++ second :: behind)) fun x y =>
      x = some true ∧ y = some false := by
  have hneutral (siblings : List (Tree α)) (hsub : ∀ sibling ∈ siblings,
      sibling ∈ before ++ first :: (between ++ second :: behind)) :
      ∀ sibling ∈ siblings, CanShow sibling (View.Neutral c) :=
    fun sibling hmem => canShow_avoids (h sibling (hsub sibling hmem)) _
  obtain ⟨front, hfront, hfront'⟩ := exists_forall₂_of_canShow
    (hneutral before fun sibling hmem => by simp [hmem])
  obtain ⟨middle, hmiddle, hmiddle'⟩ := exists_forall₂_of_canShow
    (hneutral between fun sibling hmem => by simp [hmem])
  obtain ⟨back, hback, hback'⟩ := exists_forall₂_of_canShow
    (hneutral behind fun sibling hmem => by simp [hmem])
  rcases hfirst with ⟨s, hs, hs'⟩
  rcases hsecond with ⟨r, hr, hr'⟩
  have hshapes : List.Forall₂ SameShape (front ++ s :: (middle ++ r :: back))
      (before ++ first :: (between ++ second :: behind)) :=
    List.rel_append hfront (List.Forall₂.cons hs (List.rel_append hmiddle
      (List.Forall₂.cons hr hback)))
  refine ⟨front ++ s :: (middle ++ r :: back), hshapes, ?_⟩
  rcases hpair _ _ hs' hr' with ⟨hoverrides, a, b, ha, hb, happly⟩
  rw [groupTruth_eq_spliced (single_of_forall₂ h hshapes), ← joined_view, ← happly,
    List.map_append, List.map_cons, List.map_append, List.map_cons]
  exact View.spliced_crowded hfront' hmiddle' hback' hoverrides ha hb

/-- A mixed tree can be true on both sides of its `OR`. -/
theorem canShow_of_mixed (h : SingleGroups t) (hmixed : Mixed t) :
    CanShow t fun v => v.front = some true ∧ v.back = some true ∧ v.meaning = some true := by
  rcases canShow_avoids h false with ⟨s, hshape, hs⟩
  have hsingle := h.of_sameShape hshape
  have hfront : (view s).front ≠ none := by
    rw [ne_eq, front_view_eq_none hsingle, hshape.frontLeaves_eq_nil_iff]
    exact hmixed.1
  have hback : (view s).back ≠ none := by
    rw [ne_eq, back_view_eq_none hsingle, hshape.backLeaves_eq_nil_iff]
    exact hmixed.2
  have hne : textLeaves t ≠ [] := by
    rw [textLeaves_eq_append, ne_eq, List.append_eq_nil_iff]
    exact fun hnil => hmixed.1 hnil.1
  exact ⟨s, hshape, Joiner.eq_some_of_ne hfront hs.1, Joiner.eq_some_of_ne hback hs.2.1,
    Joiner.eq_some_of_ne (view_ne_none hshape h hne).2 hs.2.2⟩

/-- A tree with leaves can mean what no neutral child means. -/
theorem canShow_of_leaves (h : SingleGroups t) (hne : textLeaves t ≠ []) (b : Bool) :
    CanShow t fun v => v.meaning = some b := by
  rcases canShow_avoids h (!b) with ⟨s, hshape, hs⟩
  exact ⟨s, hshape, Joiner.eq_some_of_ne (view_ne_none hshape h hne).2 hs.2.2⟩

/-- A mixed child beside another child with leaves. -/
theorem canGive_of_crowded {before behind : List (Tree α)}
    (h : ∀ sibling ∈ before ++ child :: behind, SingleGroups sibling) (hmixed : Mixed child)
    (hother : other ∈ before ++ behind) (hne : textLeaves other ≠ []) :
    CanGive c (before ++ child :: behind) fun x y => x = some true ∧ y = some false := by
  have hchild := canShow_of_mixed (h child (by simp)) hmixed
  have hsibling : CanShow other fun v => v.meaning = some (!(joiner c false).unit) :=
    canShow_of_leaves (h other (mem_of_mem_siblings hother)) hne _
  rw [List.mem_append] at hother
  rcases hother with hother | hother
  · rcases List.append_of_mem hother with ⟨first, between, rfl⟩
    rw [List.append_assoc, List.cons_append] at h ⊢
    refine canGive_of_two h hsibling hchild ?_
    rintro v w hv ⟨hfront, hback, hmeaning⟩
    refine ⟨Or.inr ⟨?_, hback⟩, _, _, hv, hmeaning, ?_⟩
    · rw [hfront]
      exact Option.some_ne_none true
    · cases c <;> rfl
  · rcases List.append_of_mem hother with ⟨between, last, rfl⟩
    refine canGive_of_two h hchild hsibling ?_
    rintro v w ⟨hfront, hback, hmeaning⟩ hw
    refine ⟨Or.inl ⟨hfront, ?_⟩, _, _, hmeaning, hw, ?_⟩
    · rw [hback]
      exact Option.some_ne_none true
    · cases c <;> rfl

end

/-! ## Text against meaning -/

/-- If a tree is not separated, its text can be true and its meaning false. -/
theorem exists_overstated {t : Tree α} (h : SingleGroups t) (hnot : ¬ Separated t) :
    CanShow t fun v => v.text = some true ∧ v.meaning = some false := by
  induction t using induction with
  | step t ih =>
    by_cases hchildren : ∀ c, ∀ child ∈ children c t, Separated child
    · have hcrowded : ∃ c before child behind, children c t = before ++ child :: behind ∧
          Mixed child ∧ ∃ other ∈ before ++ behind, textLeaves other ≠ [] := by
        by_contra hnone
        push Not at hnone
        exact hnot (Separated.intro hnone hchildren)
      rcases hcrowded with ⟨c, before, child, behind, heq, hmixed, other, hother, hne⟩
      have hsingle : ∀ sibling ∈ children c t, SingleGroups sibling :=
        fun sibling => h.of_mem_children
      refine exists_overstated_of_group h (c := c) ?_
      rw [heq] at hsingle ⊢
      exact canGive_of_crowded hsingle hmixed hother hne
    · push Not at hchildren
      rcases hchildren with ⟨c, child, hchild, hbad⟩
      have hshow := ih c child hchild (h.of_mem_children hchild) hbad
      have hsingle : ∀ sibling ∈ children c t, SingleGroups sibling :=
        fun sibling => h.of_mem_children
      refine exists_overstated_of_group h (c := c) ?_
      rcases List.append_of_mem hchild with ⟨before, behind, heq⟩
      rw [heq] at hsingle ⊢
      refine canGive_of_single hsingle ?_ hshow fun _ hv => hv
      intro other hother
      exact canShow_avoids (hsingle other (mem_of_mem_siblings hother)) _

/-- Whatever the truth values of its leaves are, the text of a tree means what the tree
means, exactly if the tree is separated. -/
theorem forall_truth_eq_meaning_iff {t : Tree α} (h : SingleGroups t) :
    (∀ s : Tree Bool, SameShape s t → truth s = meaning s) ↔ Separated t := by
  constructor
  · intro hagree
    by_contra hnot
    rcases exists_overstated h hnot with ⟨s, hshape, htext, hmeaning⟩
    have heq := hagree s hshape
    rw [truth_eq_text (h.of_sameShape hshape), htext] at heq
    have hmeaning' : meaning s = some false := hmeaning
    rw [hmeaning'] at heq
    simp at heq
  · intro hseparated s hshape
    exact (hseparated.of_sameShape hshape).truth_eq_meaning (h.of_sameShape hshape)

end GraphFilter.Tree
