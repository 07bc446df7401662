import Linewise.Buffer

/-!
# Sources

A source is what a pass over a document reads: its lines, where each starts, and the revision of the
text. A pass asks for the revision again after it has read lines, and stops if it has moved. To speak of
texts that change while they are read, a source says how many lines can be read before that happens.
-/

namespace Linewise

/-- A line of a source. -/
structure SourceLine where
  /-- The document offset at which the line starts. -/
  start : Nat
  text : List Char
  deriving DecidableEq, Repr

/-- A document as a pass reads it. -/
structure Source where
  lines : List SourceLine
  /-- The revision before any line has been read. -/
  revision : Nat
  /-- Number of lines that can be read before the revision moves, if it ever does. -/
  stableReads : Option Nat
  deriving DecidableEq, Repr

namespace Source

/-- Number of lines. -/
def lineCount (s : Source) : Nat := s.lines.length

/-- The lines without their places. -/
def texts (s : Source) : List (List Char) := s.lines.map (·.text)

/-- A line, if the document has it. -/
def line? (s : Source) (line : Nat) : Option SourceLine := s.lines[line]?

/-- The line that holds an offset. -/
def lineOf (s : Source) (offset : Nat) : Nat := Text.lineOf (s.lines.map (·.start)) offset

/-- The revision once a number of lines have been read. -/
def revisionAfter (s : Source) (reads : Nat) : Nat :=
  match s.stableReads with
  | none => s.revision
  | some stable => if stable < reads then s.revision + 1 else s.revision

end Source

/-- What a pass reads of a buffer: line by line, where it starts and its characters. -/
def Buffer.source (b : Buffer) : Source where
  lines := (List.range b.lineCount).map fun i => ⟨b.lineStart i, (b.line? i).getD []⟩
  revision := b.revision
  stableReads := none

end Linewise
