import Linewise.LineState

/-!
# Modes of markup

Where a line of markup starts, and where it ends, is one of a few places: in content, inside a tag,
inside a comment, inside a quoted attribute value, or in a script. The carried state names the place
by a small number, with 8 added while the tag is that of a script; a script's own state is carried
with 32 added.
-/

namespace Linewise.Markup

/-- The quotes around an attribute value. -/
inductive QuoteMark where
  | double
  | single
  deriving DecidableEq, Repr

/-- The quote itself. -/
def QuoteMark.char : QuoteMark → Char
  | .double => '\x22'
  | .single => '\x27'

/-- A place in a document. -/
inductive Mode where
  | content
  /-- In front of the name of an opening tag, which is that of a script or not. -/
  | name (ofScript : Bool)
  /-- In a tag, behind its name. -/
  | tag (ofScript : Bool)
  | comment
  /-- In an attribute value. -/
  | value (quote : QuoteMark) (ofScript : Bool)
  /-- In a script that is itself in the state `inner`. -/
  | script (inner : LineState)
  deriving DecidableEq, Repr

namespace Mode

/-- First of the states that carry a script. -/
def scriptBase : UInt32 := 32

/-- What is added to the state of a tag while it is that of a script. -/
def scriptFlag (ofScript : Bool) : UInt32 := if ofScript then 8 else 0

/-- The state that carries a place. No line ends in front of a name, which is on the line of its tag. -/
def toState : Mode → LineState
  | .content => .neutral
  | .name ofScript | .tag ofScript => ⟨1 + scriptFlag ofScript⟩
  | .comment => ⟨2⟩
  | .value .double ofScript => ⟨3 + scriptFlag ofScript⟩
  | .value .single ofScript => ⟨4 + scriptFlag ofScript⟩
  | .script inner => ⟨scriptBase + inner.code⟩

/-- The place that a state carries. A state that names none of the others is content. -/
def ofState (s : LineState) : Mode :=
  if scriptBase ≤ s.code then .script ⟨s.code - scriptBase⟩
  else
    let ofScript := s.code &&& 8 != 0
    match s.code &&& 0xfffffff7 with
    | 1 => .tag ofScript
    | 2 => .comment
    | 3 => .value .double ofScript
    | 4 => .value .single ofScript
    | _ => .content

end Mode

end Linewise.Markup
