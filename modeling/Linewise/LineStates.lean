import Linewise.Failure
import Linewise.LineState

/-!
# The states of all lines

For each line of a document the state behind it is remembered, so that the tokens of any line can be
made from its text alone. In front of the first line the state is neutral. After an edit the states
are mended by *propagation*: lines are lexed anew, each from the state behind the one before, until the
result is what was remembered, from where on nothing can differ.

`propagate` is told how far the edit reaches, since up to there the remembered states belong to other
lines. It says which lines it lexed and from which states (`Pass.visits`), and keeps what it found out
also if it fails on the way.
-/

namespace Linewise

/-- The state behind each line. There is always at least one line. -/
structure LineStates where
  entries : List LineState
  deriving DecidableEq, Repr, Inhabited

/-- How far a propagation went. -/
structure Propagation where
  /-- The first line that was lexed. -/
  first : Nat
  /-- The last line that was lexed. -/
  last : Nat
  /-- Number of lines that were lexed. -/
  relexed : Nat
  /-- Whether the last state was the remembered one, rather than that of the last line. -/
  stabilized : Bool
  deriving DecidableEq, Repr

namespace LineStates

/-- Neutral states for a number of lines. -/
def ofLineCount (count : Nat) : LineStates := ⟨List.replicate (max count 1) .neutral⟩

/-- The given states, or one neutral state if there are none. -/
def ofList (states : List LineState) : LineStates :=
  if states.isEmpty then ofLineCount 1 else ⟨states⟩

/-- Number of lines. -/
def length (s : LineStates) : Nat := s.entries.length

/-- That a line is not among those remembered. -/
def outOfRange (s : LineStates) (line : Nat) : Failure := .lineOutOfRange line s.length

/-- The state behind a line. -/
def get (s : LineStates) (line : Nat) : Except Failure LineState :=
  match s.entries[line]? with
  | some state => .ok state
  | none => .error (s.outOfRange line)

/-- The state in front of a line. -/
def before (s : LineStates) (line : Nat) : Except Failure LineState :=
  match line with
  | 0 => .ok .neutral
  | above + 1 => s.get above

/-- Overwrites the state behind a line. -/
def set (s : LineStates) (line : Nat) (state : LineState) : Except Failure LineStates :=
  if line < s.length then .ok ⟨s.entries.set line state⟩ else .error (s.outOfRange line)

/-- Makes room for lines, with neutral states, in front of a given one. -/
def insertLines (s : LineStates) (position count : Nat) : Except Failure LineStates :=
  if s.length < position then .error (s.outOfRange position)
  else .ok ⟨s.entries.take position ++ List.replicate count .neutral ++ s.entries.drop position⟩

/-- Forgets lines from a given one on. One line always stays. A failure names the line behind the range,
as a 64-bit word. -/
def removeLines (s : LineStates) (position count : Nat) : Except Failure LineStates :=
  if s.length < position + count ∨ s.length ≤ count then
    .error (s.outOfRange ((position + count) % UInt64.size))
  else .ok ⟨s.entries.take position ++ s.entries.drop (position + count)⟩

/-! ### Propagation -/

/-- What a propagation leaves behind. -/
structure Pass where
  states : LineStates
  /-- The lines that were lexed, each with the state it was lexed from. -/
  visits : List (Nat × LineState)
  result : Except Failure Propagation

/-- How one line is lexed anew, from the state in front of it. -/
abbrev Relex := (line : Nat) → (before : LineState) → Except Failure LineState

/-- Propagates into the remembered states `old` of a line and of those below it. The answer has the last
line that was lexed and whether its state was the remembered one. -/
def propagateFrom (relex : Relex) (through line : Nat) (before : LineState) (old : List LineState) :
    List LineState × List (Nat × LineState) × Except Failure (Nat × Bool) :=
  match old with
  | [] => ([], [], .error (.lineOutOfRange line line))
  | remembered :: below =>
    match relex line before with
    | .error e => (remembered :: below, [(line, before)], .error e)
    | .ok found =>
      if through ≤ line ∧ found = remembered then
        (remembered :: below, [(line, before)], .ok (line, true))
      else if below.isEmpty then ([found], [(line, before)], .ok (line, false))
      else
        let (states, visits, result) := propagateFrom relex through (line + 1) found below
        (found :: states, (line, before) :: visits, result)

/-- Lexes lines anew from `first` on, at least up to `through`, until a state is the remembered one. -/
def propagate (s : LineStates) (relex : Relex) (first through : Nat) : Pass :=
  if s.length ≤ first then ⟨s, [], .error (s.outOfRange first)⟩
  else
    match s.before first with
    | .error e => ⟨s, [], .error e⟩
    | .ok before =>
      let (states, visits, result) :=
        propagateFrom relex through first before (s.entries.drop first)
      ⟨⟨s.entries.take first ++ states⟩, visits,
        result.map fun (last, stabilized) => ⟨first, last, visits.length, stabilized⟩⟩

end LineStates

end Linewise
