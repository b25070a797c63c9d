import GraphFilter.Proofs.Cypher.Grouping

/-!
# How expressions of trees are written

A tree that does not repeat its groups is written in pieces: its leaves and its conjunctive group
with `AND` between them, and behind `OR` its alternative group.  The groups stand in parentheses,
with `AND` between the children of the first one and `XOR` between those of the second one.
Where a piece has no parts, its joiner and its parentheses are left out.

Main results:

- Theorem {lit}`Chain.chainParts_flatMap`: chains behind one joiner are pieces with this joiner
  between them.
- Theorem {lit}`Tree.parts_eq_written`: the parts of a tree.
-/

namespace GraphFilter

/-! ## Pieces -/

/-- Pieces with a joiner between them.  Pieces without parts are left out. -/
def joined (j : Joiner) (pieces : List (List Part)) : List Part :=
  [j.part].intercalate (pieces.filter fun piece => !piece.isEmpty)

/-- A piece in parentheses, if it has parts. -/
def enclosed : List Part → List Part
  | [] => []
  | part :: rest => [.symbol .openParen] ++ (part :: rest) ++ [.symbol .closeParen]

/-- A piece with its joiner in front of it, if it has parts. -/
def behindJoiner (j : Joiner) : List Part → List Part
  | [] => []
  | part :: rest => [j.part] ++ (part :: rest)

section
variable {j : Joiner} {piece : List Part} {pieces : List (List Part)}

theorem behindJoiner_of_ne_nil (h : piece ≠ []) : behindJoiner j piece = [j.part] ++ piece := by
  cases piece with
  | nil => exact absurd rfl h
  | cons part rest => rfl

theorem enclosed_of_ne_nil (h : piece ≠ []) :
    enclosed piece = [.symbol .openParen] ++ piece ++ [.symbol .closeParen] := by
  cases piece with
  | nil => exact absurd rfl h
  | cons part rest => rfl

@[simp]
theorem joined_nil (j : Joiner) : joined j [] = [] :=
  rfl

@[simp]
theorem joined_nil_cons : joined j ([] :: pieces) = joined j pieces :=
  rfl

/-- The pieces behind one that has parts come behind their joiner. -/
theorem joined_cons (hpiece : piece ≠ []) :
    joined j (piece :: pieces) = piece ++ behindJoiner j (joined j pieces) := by
  have hkept : (!piece.isEmpty) = true := by simpa using hpiece
  unfold joined
  rw [List.filter_cons_of_pos (by exact hkept)]
  cases hpieces : pieces.filter fun piece => !piece.isEmpty with
  | nil => simp [behindJoiner]
  | cons first rest =>
    have hfirst : first ≠ [] := by
      have hmem : first ∈ pieces.filter fun piece => !piece.isEmpty := by simp [hpieces]
      simpa using (List.mem_filter.mp hmem).2
    obtain ⟨part, others, rfl⟩ := List.exists_cons_of_ne_nil hfirst
    rw [List.intercalate_cons_of_ne_nil (List.cons_ne_nil _ _), List.append_assoc]
    cases rest <;> simp [behindJoiner]

theorem joined_singleton : joined j [piece] = piece := by
  cases piece with
  | nil => rfl
  | cons part rest =>
    rw [joined_cons (List.cons_ne_nil _ _), joined_nil, behindJoiner, List.append_nil]

/-- A piece with the other pieces, joined, behind it. -/
theorem joined_joined : joined j [piece, joined j pieces] = joined j (piece :: pieces) := by
  cases piece with
  | nil => rw [joined_nil_cons, joined_nil_cons, joined_singleton]
  | cons part rest =>
    rw [joined_cons (List.cons_ne_nil _ _), joined_cons (List.cons_ne_nil _ _), joined_singleton]

end

/-! ## Chains -/

namespace Chain

variable {α : Type} {parts : α → List Part}

@[simp]
theorem chainParts_withJoiner (j : Joiner) (c : Chain α) :
    chainParts parts (withJoiner j c) = chainParts parts c := by
  cases c <;> rfl

theorem restParts_append (c d : Chain α) :
    restParts parts (c ++ d) = restParts parts c ++ restParts parts d := by
  induction c with
  | nil => rfl
  | cons term rest ih => simp [restParts, ih]

/-- The joiner in front of the first term is not written. -/
theorem chainParts_withJoiner_append (j k : Joiner) (c d : Chain α) :
    chainParts parts (withJoiner j c ++ d) = chainParts parts (withJoiner k c ++ d) := by
  cases c <;> rfl

end Chain

namespace Chain

variable (j : Joiner) {c d : Chain (Predicate Bound)}

/-- Behind a term, a chain is written with the joiner that was set. -/
theorem restParts_withJoiner : restParts Predicate.parts (withJoiner j c) =
    behindJoiner j (chainParts Predicate.parts c) := by
  cases c with
  | nil => rfl
  | cons term rest =>
    rw [behindJoiner_of_ne_nil (chainParts_eq_nil_iff.not.mpr (List.cons_ne_nil _ _)), withJoiner,
      restParts_cons]
    rfl

/-- Two chains with a joiner between them. -/
theorem chainParts_append : chainParts Predicate.parts (c ++ withJoiner j d) =
    joined j [chainParts Predicate.parts c, chainParts Predicate.parts d] := by
  cases c with
  | nil =>
    rw [List.nil_append, chainParts_withJoiner, chainParts, joined_nil_cons, joined_singleton]
  | cons term rest =>
    rw [joined_cons (chainParts_eq_nil_iff.not.mpr (List.cons_ne_nil _ _)), joined_singleton,
      ← restParts_withJoiner, List.cons_append, chainParts, chainParts, restParts_append,
      List.append_assoc]

/-- Chains behind one joiner are pieces with this joiner between them. -/
theorem chainParts_flatMap (cs : List (Chain (Predicate Bound))) :
    chainParts Predicate.parts (cs.flatMap (withJoiner j)) =
      joined j (cs.map (chainParts Predicate.parts)) := by
  have hjoiner (cs : List (Chain (Predicate Bound))) :
      withJoiner j (cs.flatMap (withJoiner j)) = cs.flatMap (withJoiner j) := by
    induction cs with
    | nil => rfl
    | cons c cs ih =>
      cases c with
      | nil => exact ih
      | cons term rest => rfl
  induction cs with
  | nil => rfl
  | cons c cs ih =>
    rw [List.flatMap_cons, ← hjoiner cs, chainParts_append, chainParts_withJoiner, ih,
      List.map_cons, joined_joined]

theorem chainParts_wrap : chainParts Predicate.parts (wrap j c) =
    enclosed (chainParts Predicate.parts c) := by
  cases c with
  | nil => rfl
  | cons term rest =>
    rw [enclosed_of_ne_nil (chainParts_eq_nil_iff.not.mpr (List.cons_ne_nil _ _))]
    exact List.append_nil _

end Chain

/-! ## Trees -/

namespace Tree

/-- The pieces of a tree, put together: its leaves and its conjunctive group, and behind `OR` its
alternative group.  `OR` stands nowhere else than in front of the parentheses of the alternative
group, and `XOR` nowhere else than between its children, directly within these parentheses. -/
def written (t : Tree (Predicate Bound)) : List Part :=
  joined .or [
    joined .and ((topLeaves t).map Predicate.parts ++
      [enclosed (joined .and ((children .and t).attach.map fun child => written child.1))]),
    enclosed (joined .xor ((children .or t).attach.map fun child => written child.1))]
termination_by sizeOf t
decreasing_by all_goals exact sizeOf_lt_of_mem_children child.2

theorem written_eq (t : Tree (Predicate Bound)) :
    written t = joined .or [
      joined .and ((topLeaves t).map Predicate.parts ++
        [enclosed (joined .and ((children .and t).map written))]),
      enclosed (joined .xor ((children .or t).map written))] := by
  rw [written]
  simp

/-- The terms of a group are the pieces of its children. -/
theorem chainParts_childTerms (c : Combinator) (members : List (Tree (Predicate Bound))) :
    Chain.chainParts Predicate.parts (childTerms c true members) =
      joined (joiner c false) (members.map parts) := by
  have hterms (members : List (Tree (Predicate Bound))) : childTerms c false members =
      (members.map toChain).flatMap (Chain.withJoiner (joiner c false)) := by
    induction members with
    | nil => rfl
    | cons child rest ih => rw [childTerms_cons, ih, List.map_cons, List.flatMap_cons]
  -- the child in front has another joiner, but that of the first term is not written
  have hfirst : Chain.chainParts Predicate.parts (childTerms c true members) =
      Chain.chainParts Predicate.parts (childTerms c false members) := by
    cases members with
    | nil => rfl
    | cons child rest =>
      rw [childTerms_cons, childTerms_cons]
      exact Chain.chainParts_withJoiner_append _ _ _ _
  rw [hfirst, hterms, Chain.chainParts_flatMap, List.map_map]
  rfl

/-- The leaves and the conjunctive group of a tree. -/
theorem chainParts_topTerms (t : Tree (Predicate Bound)) (group : Chain (Predicate Bound)) :
    Chain.chainParts Predicate.parts (topTerms t ++ Chain.wrap .and group) =
      joined .and ((topLeaves t).map Predicate.parts ++
        [enclosed (Chain.chainParts Predicate.parts group)]) := by
  have hterms : topTerms t ++ Chain.wrap .and group =
      ((topLeaves t).map (fun p => [(Joiner.and, Term.atom p)]) ++
        [Chain.wrap .and group]).flatMap (Chain.withJoiner .and) := by
    induction t with
    | nil => cases group <;> rfl
    | cons condition rest ih =>
      cases condition with
      | leaf p =>
        rw [topTerms, topLeaves, List.cons_append, ih]
        rfl
      | group d members => exact ih
  have hatom : Chain.chainParts Predicate.parts ∘ (fun p => [(Joiner.and, Term.atom p)]) =
      Predicate.parts := by
    funext p
    exact List.append_nil _
  rw [hterms, Chain.chainParts_flatMap, List.map_append, List.map_map, List.map_singleton,
    Chain.chainParts_wrap, hatom]

/-- A tree that does not repeat its groups is written in its pieces. -/
theorem parts_eq_written {t : Tree (Predicate Bound)} (h : SingleGroups t) :
    t.parts = t.written := by
  induction t using induction with
  | step t ih =>
    have hchildren (c : Combinator) : (children c t).map parts = (children c t).map written :=
      List.map_congr_left fun child hchild => ih c child hchild (h.of_mem_children hchild)
    have hor : Chain.withJoiner .or (Chain.wrap .or (groupTerms .or t)) =
        Chain.wrap .or (groupTerms .or t) := by
      cases groupTerms .or t <;> rfl
    rw [parts, toChain, ← hor, Chain.chainParts_append, chainParts_topTerms, Chain.chainParts_wrap,
      h.groupTerms_eq, h.groupTerms_eq, chainParts_childTerms, chainParts_childTerms, hchildren,
      hchildren, written_eq]
    rfl

end Tree

end GraphFilter
