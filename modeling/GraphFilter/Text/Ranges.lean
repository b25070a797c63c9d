/-!
# Code point ranges

Membership of a code point in a table of closed ranges.  The character classes
of this library keep their members beyond ASCII in such tables.
-/

namespace GraphFilter.Text

/-- Whether a code point lies in one of the closed ranges. -/
def inRanges (ranges : List (Nat × Nat)) (n : Nat) : Bool :=
  ranges.any fun range => range.1 ≤ n && n ≤ range.2

/-- Membership in a table is membership in one of its ranges. -/
theorem inRanges_iff {ranges : List (Nat × Nat)} {n : Nat} :
    inRanges ranges n = true ↔ ∃ range ∈ ranges, range.1 ≤ n ∧ n ≤ range.2 := by
  simp [inRanges]

end GraphFilter.Text
