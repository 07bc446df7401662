import Linewise.CFamily.Construct
import Linewise.Token.Kind

/-!
# Extents

How far a lexeme reaches is known before it is cut: either a number of characters, or all that is left
of the line together with the construct that the line then leaves open.
-/

namespace Linewise.CFamily

/-- How far a lexeme reaches from here. -/
inductive Extent where
  /-- `length` characters. -/
  | upTo (kind : Token.Kind) (length : Nat)
  /-- All that is left of the line, which leaves `left` open. -/
  | toEnd (kind : Token.Kind) (left : Option Construct)
  deriving DecidableEq, Repr

/-- The same extent, seen from `n` characters earlier. -/
def Extent.shift (n : Nat) : Extent → Extent
  | .upTo kind length => .upTo kind (n + length)
  | .toEnd kind left => .toEnd kind left

end Linewise.CFamily
