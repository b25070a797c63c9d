import GraphFilter.Proofs.Param.Spelled
import GraphFilter.Proofs.Tree.Traversal
import GraphFilter.Where.Compile

/-!
# Numbers spelled in comparisons

A comparison by size takes a number or a string that spells one.  For integers of 64 bits, with or
without a sign, it makes no difference which of the two is given, nor how the string spells the
integer.

Main results:

- Theorem {lit}`Comparison.Respelled.exists_clause`: comparisons that differ in such an operand
  compile to the same clause.
- Theorem {lit}`Where.compile_respelled`: where objects that have them anywhere compile alike.
-/

namespace GraphFilter

open Decimal (Numeral)
open Param (IsRead IsSpelled)

/-! ## Comparisons -/

namespace Comparison

/-- The operators that compare by size. -/
def sizeOperators : List Operator :=
  [.gt, .gte, .lt, .lte]

/-- A comparison by size takes what denotes a number. -/
theorem exists_relation {operator : Operator} (h : operator ∈ sizeOperators) :
    ∃ relation, ∀ {field : String} {v : Json.Value} {p : Param}, Param.numeric? v = some p →
      check ⟨field, operator, some v⟩ = .ok ⟨field, .relates relation p⟩ := by
  obtain ⟨relation, hrelation⟩ : ∃ relation, relation? operator = some (relation, .number) := by
    simp only [sizeOperators, List.mem_cons, List.not_mem_nil, or_false] at h
    rcases h with rfl | rfl | rfl | rfl <;> exact ⟨_, rfl⟩
  refine ⟨relation, ?_⟩
  intro field v p hp
  have hnull : v.isNull = false := by
    cases v with
    | null => cases hp
    | _ => rfl
  have hoperand : operand? ⟨field, operator, some v⟩ = some v := by
    simp [operand?, hnull]
  unfold check
  simp only [hrelation, hoperand, convert, hp]
  rfl

/-- Two comparisons by size that differ only in how an integer of 64 bits is given: to the first
one as a number, to the second one as a string. -/
inductive Respelled : Comparison → Comparison → Prop where
  | intro {field : String} {operator : Operator} {n : ℤ} {num : Json.Number} {s : String}
      (hoperator : operator ∈ sizeOperators) (hn : n.natAbs < 2 ^ 64) (hnum : IsRead n num)
      (hs : IsSpelled n s) :
      Respelled ⟨field, operator, some (.number num)⟩ ⟨field, operator, some (.string s)⟩

/-- They ask the same of the field, and neither is refused. -/
theorem Respelled.exists_check {c d : Comparison} (h : Respelled c d) :
    c.field = d.field ∧ ∃ relation p, c.check = .ok ⟨c.field, .relates relation p⟩ ∧
      d.check = .ok ⟨c.field, .relates relation p⟩ := by
  rcases h with ⟨hoperator, hn, hnum, hs⟩
  rcases exists_relation hoperator with ⟨relation, hrelation⟩
  rcases Param.exists_ofWhole? hn with ⟨p, hp⟩
  rcases Param.numeric?_of_spelling hn hnum hs with ⟨hnumber, hstring⟩
  exact ⟨rfl, relation, p, hrelation (hnumber.trans hp), hrelation (hstring.trans hp)⟩

theorem Respelled.bind?_eq {c d : Comparison} (h : Respelled c d) (strict : Bool) :
    c.bind? strict = d.bind? strict := by
  rcases h.exists_check with ⟨-, relation, p, hc, hd⟩
  simp [bind?, hc, hd]

/-- On its own each of them compiles to the same clause. -/
theorem Respelled.exists_clause {c d : Comparison} (h : Respelled c d) (node : String)
    (names : NameSupply) : ∃ clause after, (c.compile node).runFrom names = (.ok clause, after) ∧
      (d.compile node).runFrom names = (.ok clause, after) := by
  rcases h.exists_check with ⟨-, relation, p, hc, hd⟩
  have hcompile : c.compile node = d.compile node := by
    rw [compile, compile, bind, bind, hc, hd]
  rw [← hcompile, compile, bind, hc]
  exact ⟨_, _, rfl, rfl⟩

end Comparison

/-- Where objects that differ in the spelling of integers compile alike. -/
theorem Where.compile_respelled {t : Tree (Comparison × Comparison)}
    (h : ∀ pair ∈ Tree.leaves t, pair.1 = pair.2 ∨ pair.1.Respelled pair.2) (node : String)
    (strict : Bool) : Where.compile node strict (Tree.map Prod.fst t) =
      Where.compile node strict (Tree.map Prod.snd t) := by
  have hsteps : ∀ pair ∈ Tree.leaves t, pair.1.bind? strict = pair.2.bind? strict := by
    intro pair hpair
    rcases h pair hpair with heq | hrespelled
    · rw [heq]
    · exact hrespelled.bind?_eq strict
  rw [compile, compile, Tree.map, Tree.map, Tree.filterMapM_filterMap, Tree.filterMapM_filterMap]
  exact congrArg (· >>= _) (Tree.filterMapM_congr_leaves hsteps)

/-- It makes no difference whether an integer of 64 bits is given as a number or as a string that
spells it: not to its parameter, which is the integer itself if it is in the signed range, and
not to the comparisons by size and the where objects in which it stands. -/
theorem Where.spelling_irrelevant :
    (∀ n : ℤ, n.natAbs < 2 ^ 64 →
      (∀ (l : Numeral) (text : String), Json.IsInteger l → l.value = n →
        l.StandsIn Json.Cursor.isSpace text.toList →
          ∃ num, Json.parse text = .ok (.number num) ∧ IsRead n num) ∧
      (∃ num, Json.parse (toString n) = .ok (.number num) ∧ IsRead n num) ∧
      (∀ h : Json.KeepsInteger n, IsRead n (.int n h)) ∧
      ∀ (num : Json.Number) (s : String), IsRead n num → IsSpelled n s →
        ∃ p, Param.numeric? (.number num) = some p ∧ Param.numeric? (.string s) = some p ∧
          (Param.HoldsInteger n → p = .int (Int64.ofInt n))) ∧
    (∀ c d : Comparison, c.Respelled d → ∀ (node : String) (names : NameSupply),
      ∃ clause after, (c.compile node).runFrom names = (.ok clause, after) ∧
        (d.compile node).runFrom names = (.ok clause, after)) ∧
    ∀ t : Tree (Comparison × Comparison),
      (∀ pair ∈ Tree.leaves t, pair.1 = pair.2 ∨ pair.1.Respelled pair.2) →
        ∀ (node : String) (strict : Bool), Where.compile node strict (Tree.map Prod.fst t) =
          Where.compile node strict (Tree.map Prod.snd t) := by
  refine ⟨?_, fun c d h => h.exists_clause, fun t => compile_respelled⟩
  intro n hn
  have hread (l : Numeral) (text : String) (hl : Json.IsInteger l) (hvalue : l.value = n)
      (htext : l.StandsIn Json.Cursor.isSpace text.toList) :
      ∃ num, Json.parse text = .ok (.number num) ∧ IsRead n num := by
    rcases Param.exists_parse hn hl hvalue htext with ⟨num, hparse, -⟩
    exact ⟨num, hparse, l, text, hl, hvalue, htext, hparse⟩
  refine ⟨hread, ?_, fun h => Param.isRead_int h, ?_⟩
  · exact hread (.ofInt n) _ (Json.isInteger_ofInt n) (Numeral.value_ofInt n)
      (Numeral.standsIn_ofInt _ n)
  · intro num s hnum hs
    rcases Param.numeric?_of_spelling hn hnum hs with ⟨hnumber, hstring⟩
    rcases Param.exists_ofWhole? hn with ⟨p, hp⟩
    refine ⟨p, hnumber.trans hp, hstring.trans hp, ?_⟩
    intro hholds
    exact Option.some.inj (hp.symm.trans (Param.ofWhole?_of_holds hholds))

end GraphFilter
