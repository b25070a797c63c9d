import GraphFilter.Proofs.Cypher.Grouping
import Mathlib.Data.List.Chain

/-!
# The grammar of expressions

An expression is a term, or several with joiners between them; a term is a predicate, or an
expression in parentheses.  What derives from this grammar has parentheses that match and hold
something, and joiners that stand between two terms each.  A chain is written by this grammar as
long as its parentheses hold something, whatever its joiners are.

Main results:

- Theorem {lit}`IsExpr.balanced`: in an expression each parenthesis has its partner.
- Theorem {lit}`IsExpr.wellJoined`: no joiner and no parenthesis lacks the term it asks for.
- Theorem {lit}`Chain.Solid.isExpr`: the parts of a chain are an expression.
-/

namespace GraphFilter

/-! ## Derivations -/

mutual

/-- Parts that derive from the grammar as an expression. -/
inductive IsExpr : List Part → Prop where
  | term {term : List Part} (hterm : IsTerm term) : IsExpr term
  | join {term rest : List Part} (hterm : IsTerm term) (j : Joiner) (hrest : IsExpr rest) :
      IsExpr (term ++ [j.part] ++ rest)

/-- Parts that derive from the grammar as a term. -/
inductive IsTerm : List Part → Prop where
  | atom (p : Predicate Bound) : IsTerm p.parts
  | paren {parts : List Part} (h : IsExpr parts) :
      IsTerm ([.symbol .openParen] ++ parts ++ [.symbol .closeParen])

end

/-! ## Parentheses and joiners -/

namespace Part

/-- The number of open parentheses behind a part, if none is closed that was not opened. -/
def nest : Nat → Part → Option Nat
  | depth, .symbol .openParen => some (depth + 1)
  | depth + 1, .symbol .closeParen => some depth
  | 0, .symbol .closeParen => none
  | depth, _ => some depth

/-- Whether a part is a joiner. -/
def isJoiner : Part → Bool
  | .keyword .and | .keyword .xor | .keyword .or => true
  | _ => false

/-- Whether a term has to follow a part. -/
def asksBehind (p : Part) : Bool :=
  p.isJoiner || p = .symbol .openParen

/-- Whether a term has to stand in front of a part. -/
def asksBefore (p : Part) : Bool :=
  p.isJoiner || p = .symbol .closeParen

/-- Whether a part asks for no term. -/
def asksNothing (p : Part) : Bool :=
  !p.asksBehind && !p.asksBefore

/-- Parentheses match: none is closed too early, and none stays open. -/
def Balanced (parts : List Part) : Prop :=
  parts.foldlM nest 0 = some 0

/-- Each joiner stands between two terms, and parentheses hold at least one: there is no joiner
at either end or next to another one, and none at the edge of parentheses. -/
structure WellJoined (parts : List Part) : Prop where
  front : ∀ part ∈ parts.head?, part.asksBefore = false
  back : ∀ part ∈ parts.getLast?, part.asksBehind = false
  between : parts.IsChain fun a b => ¬(a.asksBehind = true ∧ b.asksBefore = true)

/-- Two rows of parts in which nothing is lacking, with a joiner between them. -/
theorem WellJoined.join {first second : List Part} (hfirst : WellJoined first) (hne : first ≠ [])
    (j : Joiner) (hsecond : WellJoined second) (hne' : second ≠ []) :
    WellJoined (first ++ [j.part] ++ second) := by
  refine ⟨?_, ?_, ?_⟩
  · rw [List.append_assoc, List.head?_append_of_ne_nil _ hne]
    exact hfirst.front
  · rw [List.getLast?_append_of_ne_nil _ hne']
    exact hsecond.back
  · rw [List.append_assoc, List.isChain_append, List.singleton_append, List.isChain_cons]
    refine ⟨hfirst.between, ⟨?_, hsecond.between⟩, ?_⟩
    · rintro b hb ⟨-, hbefore⟩
      rw [hsecond.front b hb] at hbefore
      cases hbefore
    · rintro a ha _ - ⟨hbehind, -⟩
      rw [hfirst.back a ha] at hbehind
      cases hbehind

/-- A row of parts in which nothing is lacking, in parentheses. -/
theorem WellJoined.enclosed {parts : List Part} (h : WellJoined parts) (hne : parts ≠ []) :
    WellJoined ([.symbol .openParen] ++ parts ++ [.symbol .closeParen]) := by
  refine ⟨?_, ?_, ?_⟩
  · rintro _ ⟨⟩
    rfl
  · rw [List.getLast?_append_of_ne_nil _ (List.cons_ne_nil _ _)]
    rintro _ ⟨⟩
    rfl
  · rw [List.append_assoc, List.singleton_append, List.isChain_cons, List.isChain_append,
      List.head?_append_of_ne_nil _ hne]
    refine ⟨?_, h.between, List.isChain_singleton _, ?_⟩
    · rintro b hb ⟨-, hbefore⟩
      rw [h.front b hb] at hbefore
      cases hbefore
    · rintro a ha _ - ⟨hbehind, -⟩
      rw [h.back a ha] at hbehind
      cases hbehind

theorem asksNothing_iff {p : Part} :
    p.asksNothing = true ↔ p.asksBehind = false ∧ p.asksBefore = false := by
  rw [asksNothing, Bool.and_eq_true, Bool.not_eq_true', Bool.not_eq_true']

/-- Joiners are no parentheses. -/
theorem nest_joiner (j : Joiner) (depth : Nat) : nest depth j.part = some depth := by
  cases j <;> cases depth <;> rfl

/-- Nor are parts that ask for nothing. -/
theorem nest_of_asksNothing {p : Part} (h : p.asksNothing = true) (depth : Nat) :
    nest depth p = some depth := by
  cases p with
  | symbol s =>
    cases s with
    | openParen | closeParen => cases h
    | _ => cases depth <;> rfl
  | _ => cases depth <;> rfl

section
variable {parts : List Part} (h : ∀ part ∈ parts, part.asksNothing = true)
include h

theorem foldlM_nest_of_asksNothing (depth : Nat) : parts.foldlM nest depth = some depth := by
  induction parts with
  | nil => rfl
  | cons part rest ih =>
    rcases List.forall_mem_cons.mp h with ⟨hpart, hrest⟩
    rw [List.foldlM_cons, nest_of_asksNothing hpart]
    exact ih hrest

theorem wellJoined_of_asksNothing : WellJoined parts := by
  refine ⟨?_, ?_, ?_⟩
  · intro part hpart
    exact (asksNothing_iff.mp (h part (List.mem_of_mem_head? hpart))).2
  · intro part hpart
    exact (asksNothing_iff.mp (h part (List.mem_of_mem_getLast? hpart))).1
  · refine (List.pairwise_of_forall_mem_list ?_).isChain
    rintro a ha b - ⟨hbehind, -⟩
    rw [(asksNothing_iff.mp (h a ha)).1] at hbehind
    cases hbehind

end

end Part

open GraphFilter.Part (Balanced WellJoined nest)

/-- A predicate has neither joiners nor parentheses. -/
theorem Predicate.asksNothing_parts (p : Predicate Bound) :
    ∀ part ∈ p.parts, part.asksNothing = true := by
  rw [← List.all_eq_true]
  rcases p with ⟨field, test⟩
  cases test with
  | null negated => cases negated <;> rfl
  | relates relation operand =>
    cases relation with
    | member negated | contains negated => cases negated <;> rfl
    | _ => rfl

/-! ## What derives from the grammar -/

mutual

theorem IsExpr.ne_nil : ∀ {parts : List Part}, IsExpr parts → parts ≠ []
  | _, .term hterm => hterm.ne_nil
  | _, .join _ j _ => by simp

theorem IsTerm.ne_nil : ∀ {parts : List Part}, IsTerm parts → parts ≠ []
  | _, .atom p => p.parts_ne_nil
  | _, .paren _ => by simp

end

mutual

/-- Behind an expression as many parentheses are open as in front of it, however many that are:
within its own parentheses it is one more. -/
theorem IsExpr.foldlM_nest (depth : Nat) : ∀ {parts : List Part}, IsExpr parts →
    parts.foldlM nest depth = some depth
  | _, .term hterm => hterm.foldlM_nest depth
  | _, .join hterm j hrest => by
    rw [List.foldlM_append, List.foldlM_append, hterm.foldlM_nest depth]
    simp [Part.nest_joiner, hrest.foldlM_nest depth]

/-- So it is with a term. -/
theorem IsTerm.foldlM_nest (depth : Nat) : ∀ {parts : List Part}, IsTerm parts →
    parts.foldlM nest depth = some depth
  | _, .atom p => Part.foldlM_nest_of_asksNothing p.asksNothing_parts depth
  | _, .paren h => by
    rw [List.foldlM_append, List.foldlM_append]
    simp [nest, h.foldlM_nest (depth + 1)]

end

theorem IsExpr.balanced {parts : List Part} (h : IsExpr parts) : Balanced parts :=
  h.foldlM_nest 0

mutual

/-- In an expression no part lacks the term it asks for. -/
theorem IsExpr.wellJoined : ∀ {parts : List Part}, IsExpr parts → WellJoined parts
  | _, .term hterm => hterm.wellJoined
  | _, .join hterm j hrest => hterm.wellJoined.join hterm.ne_nil j hrest.wellJoined hrest.ne_nil

/-- So it is with a term. -/
theorem IsTerm.wellJoined : ∀ {parts : List Part}, IsTerm parts → WellJoined parts
  | _, .atom p => Part.wellJoined_of_asksNothing p.asksNothing_parts
  | _, .paren h => h.wellJoined.enclosed h.ne_nil

end

/-! ## Chains -/

namespace Chain

variable {c rest : Chain (Predicate Bound)}

/-- A term in front of a chain that is an expression, unless there is nothing behind it. -/
theorem isExpr_cons {j : Joiner} {t : Term (Predicate Bound)}
    (hterm : IsTerm (termParts Predicate.parts t))
    (hrest : rest ≠ [] → IsExpr (chainParts Predicate.parts rest)) :
    IsExpr (chainParts Predicate.parts ((j, t) :: rest)) := by
  rw [chainParts]
  cases rest with
  | nil =>
    rw [restParts, List.append_nil]
    exact .term hterm
  | cons term rest =>
    rw [restParts_cons, ← List.append_assoc]
    exact .join hterm _ (hrest (List.cons_ne_nil _ _))

/-- A chain whose parentheses hold something is an expression, unless it has no terms. -/
theorem Solid.isExpr (h : Solid c) (hne : c ≠ []) : IsExpr (chainParts Predicate.parts c) := by
  induction h with
  | nil => exact absurd rfl hne
  | atom j p _ ih => exact isExpr_cons (.atom p) ih
  | paren j hterms _ _ ihterms ihrest => exact isExpr_cons (.paren (ihterms hterms)) ihrest

end Chain

end GraphFilter
