import GraphFilter.Proofs.Cypher.Part
import GraphFilter.Proofs.Tree.Tidy

/-!
# Expressions of the same text

The joiner in front of an expression is not written where the expression begins a text or
a pair of parentheses.  So two expressions may differ there and still be written alike.
This is why a child without terms leaves no trace in the text of its group: the next child
takes another joiner, but is now the first one.

Main results:

- Theorem {lit}`Tree.render_map`: the text of a tree depends on the texts of its leaves.
- Theorem {lit}`Tree.render_tidy`: tidying a tree does not change its text, if no group in
  it is repeated.
-/

namespace GraphFilter

/-! ## Expressions -/

namespace Chain

variable {α β : Type}

/-- Two chains that are written alike where they begin a text. -/
structure SameFront (text : α → String) (text' : β → String) (c : Chain α) (d : Chain β) :
    Prop where
  nil_iff : c = [] ↔ d = []
  render_eq : render text c = render text' d

/-- Two chains that are written alike everywhere. -/
structure SameText (text : α → String) (text' : β → String) (c : Chain α) (d : Chain β) : Prop
    extends SameFront text text' c d where
  renderRest_eq : renderRest text c = renderRest text' d

variable {text : α → String} {text' : β → String}

theorem SameText.refl (text : α → String) (c : Chain α) : SameText text text c c :=
  ⟨⟨Iff.rfl, rfl⟩, rfl⟩

theorem sameText_nil : SameText text text' [] [] :=
  ⟨⟨by simp, rfl⟩, rfl⟩

/-- Terms behind others are written with their joiners. -/
theorem renderRest_append (text : α → String) (c d : Chain α) :
    renderRest text (c ++ d) = renderRest text c ++ renderRest text d := by
  induction c with
  | nil => simp [renderRest]
  | cons term rest ih => simp [renderRest, ih, String.append_assoc]

theorem render_append (text : α → String) {c : Chain α} (h : c ≠ []) (d : Chain α) :
    render text (c ++ d) = render text c ++ renderRest text d := by
  cases c with
  | nil => exact absurd rfl h
  | cons term rest => simp [render, renderRest_append, String.append_assoc]

theorem SameText.cons_atom (j : Joiner) {a : α} {b : β} (hatom : text a = text' b) {c : Chain α}
    {d : Chain β} (h : SameText text text' c d) :
    SameText text text' ((j, .atom a) :: c) ((j, .atom b) :: d) := by
  refine ⟨⟨by simp, ?_⟩, ?_⟩
  · rw [render, render, h.renderRest_eq, renderTerm, renderTerm, hatom]
  · rw [renderRest, renderRest, h.renderRest_eq, renderTerm, renderTerm, hatom]

theorem SameText.append {c c' : Chain α} {d d' : Chain β} (h : SameText text text' c d)
    (h' : SameText text text' c' d') : SameText text text' (c ++ c') (d ++ d') := by
  refine ⟨⟨?_, ?_⟩, ?_⟩
  · rw [List.append_eq_nil_iff, List.append_eq_nil_iff, h.nil_iff, h'.nil_iff]
  · by_cases hc : c = []
    · rw [hc, h.nil_iff.mp hc]
      exact h'.render_eq
    · rw [render_append text hc, render_append text' (h.nil_iff.not.mp hc), h.render_eq,
        h'.renderRest_eq]
  · rw [renderRest_append, renderRest_append, h.renderRest_eq, h'.renderRest_eq]

namespace SameFront

variable {c : Chain α} {d : Chain β}

theorem append (h : SameFront text text' c d) {c' : Chain α} {d' : Chain β}
    (h' : SameText text text' c' d') : SameFront text text' (c ++ c') (d ++ d') := by
  refine ⟨?_, ?_⟩
  · rw [List.append_eq_nil_iff, List.append_eq_nil_iff, h.nil_iff, h'.nil_iff]
  · by_cases hc : c = []
    · rw [hc, h.nil_iff.mp hc]
      exact h'.render_eq
    · rw [render_append text hc, render_append text' (h.nil_iff.not.mp hc), h.render_eq,
        h'.renderRest_eq]

/-- In front of a text the first joiner does not matter. -/
theorem withJoiner (h : SameFront text text' c d) (i j : Joiner) :
    SameFront text text' (withJoiner i c) (withJoiner j d) := by
  have hrender {δ : Type} (text : δ → String) (j : Joiner) (c : Chain δ) :
      render text (Chain.withJoiner j c) = render text c := by
    cases c <;> rfl
  refine ⟨?_, ?_⟩
  · rw [withJoiner_eq_nil, withJoiner_eq_nil, h.nil_iff]
  · rw [hrender, hrender, h.render_eq]

/-- Behind other terms it must be the same. -/
theorem sameText_withJoiner (h : SameFront text text' c d) (j : Joiner) :
    SameText text text' (Chain.withJoiner j c) (Chain.withJoiner j d) := by
  have hrest {δ : Type} (text : δ → String) {c : Chain δ} (hc : c ≠ []) :
      renderRest text (Chain.withJoiner j c) = " " ++ j.keyword ++ " " ++ render text c := by
    cases c with
    | nil => exact absurd rfl hc
    | cons term rest => simp [Chain.withJoiner, renderRest, render, String.append_assoc]
  refine ⟨h.withJoiner j j, ?_⟩
  by_cases hc : c = []
  · rw [hc, h.nil_iff.mp hc]
    rfl
  · rw [hrest text hc, hrest text' (h.nil_iff.not.mp hc), h.render_eq]

/-- In parentheses the first joiner does not matter. -/
theorem wrap (h : SameFront text text' c d) (j : Joiner) :
    SameText text text' (wrap j c) (wrap j d) := by
  by_cases hc : c = []
  · rw [hc, h.nil_iff.mp hc]
    exact sameText_nil
  · have hwrap {δ : Type} {c : Chain δ} (hc : c ≠ []) : Chain.wrap j c = [(j, .paren c)] := by
      cases c with
      | nil => exact absurd rfl hc
      | cons term rest => rfl
    rw [hwrap hc, hwrap (h.nil_iff.not.mp hc)]
    refine ⟨⟨by simp, ?_⟩, ?_⟩
    · simp only [render, renderRest, renderTerm, h.render_eq]
    · simp only [renderRest, renderTerm, h.render_eq]

end SameFront

end Chain

/-! ## Trees -/

namespace Tree

open Chain (SameFront SameText)

variable {α β : Type} {text : α → String} {text' : β → String}

/-- Two trees are written alike if their leaves and their groups are. -/
theorem sameText_toChain {t : Tree α} {s : Tree β}
    (hleaves : SameText text text' (topTerms t) (topTerms s))
    (hgroups : ∀ c, SameFront text text' (groupTerms c t) (groupTerms c s)) :
    SameText text text' (toChain t) (toChain s) :=
  (hleaves.append ((hgroups .and).wrap .and)).append ((hgroups .or).wrap .or)

theorem sameText_topTerms {t : Tree α} {s : Tree β}
    (h : (topLeaves t).map text = (topLeaves s).map text') :
    SameText text text' (topTerms t) (topTerms s) := by
  have hterms {δ : Type} (t : Tree δ) :
      topTerms t = (topLeaves t).map fun a => (.and, .atom a) := by
    induction t with
    | nil => rfl
    | cons condition rest ih =>
      cases condition with
      | leaf a => rw [topTerms, topLeaves, List.map_cons, ih]
      | group c members => exact ih
  rw [hterms, hterms]
  generalize topLeaves t = as at h
  generalize topLeaves s = bs at h
  induction as generalizing bs with
  | nil =>
    rw [List.map_nil, eq_comm, List.map_eq_nil_iff] at h
    rw [h]
    exact Chain.sameText_nil
  | cons a as ih =>
    rcases List.map_eq_cons_iff.mp h.symm with ⟨b, bs, rfl, hb, hbs⟩
    exact (ih bs hbs.symm).cons_atom .and hb.symm

/-! ## Leaves of other types -/

/-- The children of a group are written alike if each of them is. -/
theorem sameText_childTerms (c : Combinator) (first : Bool) {members : List (Tree α)}
    {others : List (Tree β)}
    (h : List.Forall₂ (fun t s => SameFront text text' (toChain t) (toChain s)) members others) :
    SameText text text' (childTerms c first members) (childTerms c first others) := by
  induction h generalizing first with
  | nil => exact Chain.sameText_nil
  | cons hchild _ ih =>
    rw [childTerms_cons, childTerms_cons]
    exact (hchild.sameText_withJoiner _).append (ih false)

/-- A tree with other leaves is written with the texts of these. -/
theorem sameText_map (text : β → String) (f : α → β) (t : Tree α) :
    SameText text (fun a => text (f a)) (toChain (map f t)) (toChain t) := by
  induction t using induction with
  | step t ih =>
    refine sameText_toChain ?_ ?_
    · refine sameText_topTerms ?_
      rw [topLeaves_map, List.map_map]
      rfl
    · intro c
      have hgroups : groups c (map f t) = (groups c t).map (List.map (map f)) :=
        groups_filterMap c _ t
      have hall : ∀ members ∈ groups c t, ∀ child ∈ members,
          SameText text (fun a => text (f a)) (toChain (map f child)) (toChain child) :=
        fun members hmembers child hchild =>
          ih c child (List.mem_flatten.mpr ⟨members, hmembers, hchild⟩)
      rw [groupTerms_eq_flatMap, groupTerms_eq_flatMap, hgroups]
      generalize groups c t = all at hall
      suffices SameText text (fun a => text (f a))
          ((all.map (List.map (map f))).flatMap (childTerms c true))
          (all.flatMap (childTerms c true)) from this.toSameFront
      induction all with
      | nil => exact Chain.sameText_nil
      | cons members rest ihrest =>
        rw [List.map_cons, List.flatMap_cons, List.flatMap_cons]
        have hfirst : List.Forall₂ (fun s t => SameFront text (fun a => text (f a)) (toChain s)
            (toChain t)) (members.map (map f)) members := by
          rw [List.forall₂_map_left_iff, List.forall₂_same]
          exact fun child hchild => (hall members (List.mem_cons_self ..) child hchild).toSameFront
        have hrest := ihrest fun members hmem => hall members (List.mem_cons_of_mem _ hmem)
        exact (sameText_childTerms c true hfirst).append hrest

/-- The text of a tree depends on the texts of its leaves. -/
theorem render_map (text : β → String) (f : α → β) (t : Tree α) :
    Chain.render text (toChain (map f t)) = Chain.render (fun a => text (f a)) (toChain t) :=
  (sameText_map text f t).render_eq

/-! ## Tidied trees -/

/-- Removing children that have nothing to show changes neither what the others show
behind other terms nor what they show in front. -/
theorem sameText_childTerms_tidyChildren (c : Combinator) {members : List (Tree α)}
    (h : ∀ child ∈ members, SameFront text text (toChain child) (toChain (tidy child))) :
    SameText text text (childTerms c false members) (childTerms c false (tidyChildren members)) ∧
      ∀ first, SameFront text text (childTerms c first members)
        (childTerms c true (tidyChildren members)) := by
  induction members with
  | nil => exact ⟨Chain.sameText_nil, fun first => Chain.sameText_nil.toSameFront⟩
  | cons t rest ih =>
    have ht := h t (List.mem_cons_self ..)
    rcases ih fun child hchild => h child (List.mem_cons_of_mem _ hchild) with ⟨hbehind, hfront⟩
    by_cases hempty : tidy t = []
    · have hnil : toChain t = [] := by
        rw [ht.nil_iff, hempty]
        rfl
      have hskip (first : Bool) : childTerms c first (t :: rest) = childTerms c false rest := by
        rw [childTerms_cons, hnil]
        rfl
      rw [tidyChildren_of_eq_nil hempty, hskip]
      refine ⟨hbehind, ?_⟩
      intro first
      rw [hskip]
      exact hfront false
    · rw [tidyChildren_of_ne_nil hempty, childTerms_cons, childTerms_cons]
      refine ⟨(ht.sameText_withJoiner _).append hbehind, ?_⟩
      intro first
      rw [childTerms_cons, childTerms_cons]
      exact (ht.withJoiner _ _).append hbehind

/-- A tree is written like what is left of it, if no group in it is repeated. -/
theorem sameText_tidy (text : α → String) {t : Tree α} (h : SingleGroups t) :
    SameText text text (toChain t) (toChain (tidy t)) := by
  induction h with
  | @intro t hgroups _ ih =>
    refine sameText_toChain ?_ ?_
    · refine sameText_topTerms ?_
      rw [topLeaves_tidy]
    · intro c
      rw [groupTerms_eq_flatMap, groupTerms_eq_flatMap, groups_tidy]
      have hchildren : ∀ members ∈ groups c t, ∀ child ∈ members,
          SameFront text text (toChain child) (toChain (tidy child)) :=
        fun members hmembers child hchild =>
          (ih c child (List.mem_flatten.mpr ⟨members, hmembers, hchild⟩)).toSameFront
      have hlength := hgroups c
      match hall : groups c t with
      | [] => exact Chain.sameText_nil.toSameFront
      | [members] =>
        rw [hall] at hchildren
        have hfront := (sameText_childTerms_tidyChildren c
          (hchildren members (List.mem_singleton_self _))).2 true
        have hflat : ([members].map tidyChildren |>.filter fun members => !members.isEmpty).flatMap
            (childTerms c true) = childTerms c true (tidyChildren members) := by
          cases hmembers : tidyChildren members <;> simp [hmembers, childTerms]
        rw [hflat, List.flatMap_singleton]
        exact hfront
      | _ :: _ :: _ =>
        rw [hall] at hlength
        simp at hlength

/-- Tidying a tree does not change its text, if no group in it is repeated. -/
theorem render_tidy (text : α → String) {t : Tree α} (h : SingleGroups t) :
    Chain.render text (toChain (tidy t)) = Chain.render text (toChain t) :=
  (sameText_tidy text h).render_eq.symm

end Tree

end GraphFilter
