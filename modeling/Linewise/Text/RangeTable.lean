/-!
# Tables of code points

A Unicode property is stored as the list of the closed ranges of code points that have it. Membership
is the only question asked of a table.
-/

namespace Linewise.Text

/-- A set of code points, given by closed ranges. -/
structure RangeTable where
  ranges : List (Nat × Nat)

/-- Whether a code point lies in one of the ranges. -/
def RangeTable.contains (t : RangeTable) (n : Nat) : Bool :=
  t.ranges.any fun r => r.1 ≤ n && n ≤ r.2

theorem RangeTable.contains_iff (t : RangeTable) (n : Nat) :
    t.contains n = true ↔ ∃ r ∈ t.ranges, r.1 ≤ n ∧ n ≤ r.2 := by
  simp [contains]

end Linewise.Text
