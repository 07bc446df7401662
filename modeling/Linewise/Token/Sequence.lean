import Linewise.Bisect
import Linewise.LineState
import Linewise.Token.Basic

/-!
# The tokens of a line

A sequence holds the tokens of one line, the sentinel that marks the line's end, and the state the
line leaves behind. It is *sound* for a line of a given length if its tokens are not empty and tile
the line from its first column to its last (`flaw?` names what is wrong otherwise). In a sound
sequence the token at an offset is found by bisection.
-/

namespace Linewise

/-- The tokens of one line. -/
structure Token.Sequence where
  /-- The tokens in the order in which they were made. -/
  tokens : List Token
  /-- What marks the end of the line. -/
  sentinel : Token
  /-- The state behind the line. -/
  endState : LineState
  deriving DecidableEq, Repr, Inhabited

/-- What makes a sequence unfit for a line. -/
inductive Token.Flaw where
  /-- A token has the kind of the sentinel. -/
  | sentinelKind (index : Nat)
  /-- A token has no characters. -/
  | empty (index : Nat)
  /-- A token does not start where the one before it ends. -/
  | misplaced (index start : Nat) (offset : UInt64) (expectedStart : Nat) (expectedOffset : UInt64)
  /-- The tokens end before or behind the line's end. -/
  | uncovered (covered lineLength : Nat)
  /-- The sentinel is not at the line's end. -/
  | sentinel
  deriving DecidableEq, Repr

namespace Token

/-- The flaw in words. -/
def Flaw.message : Flaw → String
  | .sentinelKind i => s!"token {i} has the sentinel kind"
  | .empty i => s!"token {i} is empty"
  | .misplaced i start offset expectedStart expectedOffset =>
    s!"token {i} starts at {start} (offset {offset}), " ++
      s!"expected {expectedStart} (offset {expectedOffset})"
  | .uncovered covered lineLength => s!"tokens cover {covered} of {lineLength} characters"
  | .sentinel => "sentinel missing or misplaced"

/-- Walks tokens that should tile a line from a column and an offset on. The answer is the column
behind the last token, or what is wrong with the first unfit token. -/
def tiled (index column : Nat) (offset : UInt64) : List Token → Except Flaw Nat
  | [] => .ok column
  | t :: ts =>
    if t.kind = .null then .error (.sentinelKind index)
    else if t.length = 0 then .error (.empty index)
    else if t.start ≠ column ∨ t.offset ≠ offset then
      .error (.misplaced index t.start t.offset column offset)
    else tiled (index + 1) (column + t.length) (offset + .ofNat t.length) ts

namespace Sequence

/-- The tokens and, behind them, the sentinel. -/
def all (s : Sequence) : List Token := s.tokens ++ [s.sentinel]

/-- The document offset where the line starts. -/
def startOffset (s : Sequence) : UInt64 := (s.tokens.head?.getD s.sentinel).offset

/-- The document offset where the line ends. -/
def endOffset (s : Sequence) : UInt64 := s.sentinel.offset

/-- Whether the line has no tokens. -/
def isEmpty (s : Sequence) : Bool := s.tokens.isEmpty

/-- What follows the token of a given index. -/
def next? (s : Sequence) (index : Nat) : Option Token := s.all[index + 1]?

/-- The token at a document offset. -/
def tokenAt? (s : Sequence) (offset : UInt64) : Option Token :=
  let ts := s.tokens.toArray
  ts[bisect (fun t => decide (t.endOffset ≤ offset)) ts]?.filter (·.containsOffset offset)

/-- The tokens of the same line, if it starts further behind in the document. -/
def moved (distance : UInt64) (s : Sequence) : Sequence :=
  ⟨s.tokens.map (Token.moved distance), s.sentinel.moved distance, s.endState⟩

/-- The characters of the token of a given index. -/
def textOf (s : Sequence) (index : Nat) (line : List Char) : List Char :=
  (s.all[index]?.map (·.text line)).getD []

/-- The first thing that makes the sequence unfit for a line of the given length. -/
def flaw? (s : Sequence) (lineLength : Nat) : Option Flaw :=
  match tiled 0 0 s.startOffset s.tokens with
  | .error flaw => some flaw
  | .ok covered =>
    if covered ≠ lineLength then some (.uncovered covered lineLength)
    else if s.sentinel.kind ≠ .null ∨ s.sentinel.offset ≠ s.startOffset + .ofNat lineLength then
      some .sentinel
    else none

end Sequence

/-- The sentinel of a line of the given length. -/
def endOfLine (lineStart : UInt64) (lineLength : Nat) : Token :=
  ⟨.null, lineLength, 0, lineStart + .ofNat lineLength, 0, false⟩

/-- Collects the tokens of a line that starts at a given document offset. -/
structure Builder where
  lineStart : UInt64
  tokens : Array Token

namespace Builder

/-- No tokens yet. -/
def empty (lineStart : UInt64) : Builder := ⟨lineStart, #[]⟩

/-- Adds a token of an embedded language for the columns from `start` to just before `stop`. An empty
or reversed range adds nothing. -/
def pushEmbedded (b : Builder) (kind : Kind) (start stop language : Nat) : Builder :=
  if stop ≤ start then b
  else { b with
    tokens := b.tokens.push
      ⟨kind, start, stop - start, b.lineStart + .ofNat start, language, false⟩ }

/-- Adds a token of the line's own language. -/
def push (b : Builder) (kind : Kind) (start stop : Nat) : Builder :=
  b.pushEmbedded kind start stop 0

/-- Adds the tokens of another builder as they are. -/
def extend (b other : Builder) : Builder := { b with tokens := b.tokens ++ other.tokens }

/-- Column behind the last token. -/
def covered (b : Builder) : Nat := (b.tokens.back?.map Token.stop).getD 0

/-- Ends the line at the given length and in the given state. -/
def finish (b : Builder) (lineLength : Nat) (state : LineState) : Sequence :=
  ⟨b.tokens.toList, endOfLine b.lineStart lineLength, state⟩

end Builder

end Token

end Linewise
