/-!
# The state carried from line to line

A scanner reads one line at a time. Whatever it must remember about a construct that is still open at
the end of a line is packed into one 32-bit word, which the next line starts from. The meaning of a
word is private to the scanner that made it; only the neutral state, in which nothing is open, is
common to all of them.
-/

namespace Linewise

/-- What a scanner remembers between two lines. -/
structure LineState where
  code : UInt32
  deriving DecidableEq, Repr, Inhabited

/-- Nothing is open: the state in front of every first line. -/
def LineState.neutral : LineState := ⟨0⟩

end Linewise
