/-!
# Damage

Damage is a range of lines whose tokens may have changed, and which a painter has to draw again.
-/

namespace Linewise

/-- A range of lines, both ends included. -/
structure Damage where
  first : Nat
  last : Nat
  deriving DecidableEq, Repr

namespace Damage

/-- The smallest range that covers both. -/
def union (a b : Damage) : Damage := ⟨min a.first b.first, max a.last b.last⟩

/-- Whether a line is in the range. -/
def contains (d : Damage) (line : Nat) : Bool := d.first ≤ line && line ≤ d.last

/-- Number of lines in the range, counted in 64-bit words. -/
def lineCount (d : Damage) : UInt64 := UInt64.ofNat d.last - UInt64.ofNat d.first + 1

end Damage

end Linewise
