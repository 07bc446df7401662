import Linewise.Failure
import Linewise.Text.Lines

/-!
# Text buffers

A buffer is a text that is edited. Each edit is described by the lines that it touched (`Edit`), which is
all that the upkeep of states and folds is told; and each raises the revision, by which a change behind
one's back is noticed. Places outside the text are moved to its end.
-/

namespace Linewise

/-- The two ways of changing a text. -/
inductive EditKind where
  | insert
  | remove
  deriving DecidableEq, Repr

/-- What an edit did to the lines of a text. -/
structure Edit where
  kind : EditKind
  /-- Where the edit took place. -/
  offset : Nat
  /-- Number of characters inserted or removed. -/
  length : Nat
  /-- The line that held the offset before the edit. -/
  startLine : Nat
  /-- By how many lines the text grew. -/
  linesAdded : Nat
  /-- By how many lines the text shrank. -/
  linesRemoved : Nat
  deriving DecidableEq, Repr

namespace Edit

/-- Whether the edit kept the number of lines. -/
def isSingleLine (e : Edit) : Bool := e.linesAdded == 0 && e.linesRemoved == 0

/-- The last line, counted after the edit, whose text the edit changed. -/
def lastChangedLine (e : Edit) : Nat := e.startLine + e.linesAdded

end Edit

/-- A text, and how often it has been changed. -/
structure Buffer where
  text : List Char
  revision : Nat
  deriving DecidableEq, Repr, Inhabited

namespace Buffer

/-- A buffer that has not been changed yet. -/
def ofString (s : String) : Buffer := ⟨s.toList, 0⟩

/-- The buffer of a file's content, which has to be UTF-8. -/
def ofBytes (bytes : ByteArray) : Except Failure Buffer :=
  match String.fromUTF8? bytes with
  | some s => .ok (ofString s)
  | none => .error .unreadableFile

/-- Number of characters. -/
def length (b : Buffer) : Nat := b.text.length

/-- Whether there are no characters. -/
def isEmpty (b : Buffer) : Bool := b.text.isEmpty

/-- The lines of the text. -/
def lines (b : Buffer) : List Text.Line := Text.lines b.text

/-- Number of lines. -/
def lineCount (b : Buffer) : Nat := b.lines.length

/-- The offsets at which the lines start. -/
def lineStarts (b : Buffer) : List Nat := Text.startsFrom 0 b.lines

/-- The offset at which a line starts: the end of the text for a line that is not there. -/
def lineStart (b : Buffer) (line : Nat) : Nat := b.lineStarts[line]?.getD b.length

/-- The characters from an offset on. -/
def range (b : Buffer) (start length : Nat) : List Char := (b.text.drop start).take length

/-- Number of characters of a line without its break: none for a line that is not there. -/
def lineLength (b : Buffer) (line : Nat) : Nat :=
  match b.lines[line]? with
  | none => 0
  | some l => Text.lengthBeforeBreak l.full

/-- A line without its break: from where the line starts on, as many characters as it is long. -/
def line? (b : Buffer) (line : Nat) : Option (List Char) :=
  if b.lineCount ≤ line then none else some (b.range (b.lineStart line) (b.lineLength line))

/-- The line that holds an offset. -/
def lineOf (b : Buffer) (offset : Nat) : Nat := Text.lineOf b.lineStarts offset

/-- Inserts a text at an offset. -/
def insert (b : Buffer) (offset : Nat) (inserted : List Char) : Buffer × Edit :=
  let place := min offset b.length
  let after : Buffer :=
    ⟨b.text.take place ++ inserted ++ b.text.drop place, b.revision + 1⟩
  (after, {
    kind := .insert
    offset := place
    length := inserted.length
    startLine := b.lineOf place
    linesAdded := after.lineCount - b.lineCount
    linesRemoved := 0 })

/-- Removes the characters from `start` to just before `stop`. An empty or reversed range changes
nothing. -/
def remove (b : Buffer) (start stop : Nat) : Buffer × Edit :=
  let first := min start b.length
  let last := max (min stop b.length) first
  let after : Buffer :=
    if first < last then ⟨b.text.take first ++ b.text.drop last, b.revision + 1⟩ else b
  (after, {
    kind := .remove
    offset := first
    length := last - first
    startLine := b.lineOf first
    linesAdded := 0
    linesRemoved := b.lineCount - after.lineCount })

end Buffer

end Linewise
