/-!
# Lines of a text

A text is cut into lines at its breaks: line feed, vertical tab, form feed, carriage return, next line,
line separator and paragraph separator, and the pair of carriage return and line feed, which is one
break. What follows the last break is a line too, so every text has at least one line, and the last
line alone has no break.
-/

namespace Linewise.Text

/-- Whether a character ends a line. -/
def isBreak (c : Char) : Bool :=
  c == '\n' || c == '\x0b' || c == '\x0c' || c == '\r' || c == '\u0085' || c == '\u2028' ||
    c == '\u2029'

/-- A line of a text. -/
structure Line where
  /-- The characters of the line without its break. -/
  text : List Char
  /-- The break that ends the line: nothing for the last line. -/
  ending : List Char
  deriving DecidableEq, Repr

/-- Number of characters of a line and its break. -/
def Line.size (l : Line) : Nat := l.text.length + l.ending.length

/-- The lines of a text in front of which the characters `seen`, nearest first, stand on its first
line. -/
def linesFrom (seen : List Char) : List Char → List Line
  | [] => [⟨seen.reverse, []⟩]
  | '\r' :: '\n' :: cs => ⟨seen.reverse, ['\r', '\n']⟩ :: linesFrom [] cs
  | c :: cs =>
    if isBreak c then ⟨seen.reverse, [c]⟩ :: linesFrom [] cs else linesFrom (c :: seen) cs

/-- The characters of a line and its break. -/
def Line.full (l : Line) : List Char := l.text ++ l.ending

theorem flatMap_full_linesFrom (seen cs : List Char) :
    (linesFrom seen cs).flatMap Line.full = seen.reverse ++ cs := by
  fun_induction linesFrom seen cs with
  | case1 => simp [Line.full]
  | case2 seen cs ih => simp [Line.full, ih]
  | case3 seen c cs _ hc ih => simp [Line.full, ih]
  | case4 seen c cs _ hc ih => simp [ih]

/-- Number of characters of a line in front of its break, told by how the line ends: a pair of carriage return
and line feed is one break. -/
def lengthBeforeBreak (line : List Char) : Nat :=
  match line.getLast? with
  | none => 0
  | some last =>
    if !isBreak last then line.length
    else if last = '\n' ∧ line.dropLast.getLast? = some '\r' then line.length - 2
    else line.length - 1

/-- The lines of a text. -/
def lines (cs : List Char) : List Line := linesFrom [] cs

/-- The offsets at which lines start that follow each other from a given offset on. -/
def startsFrom (offset : Nat) : List Line → List Nat
  | [] => []
  | l :: ls => offset :: startsFrom (offset + l.size) ls

/-- Among offsets at which lines start, the number of the line that holds a given offset: the last line
that does not start behind it. -/
def lineOf (starts : List Nat) (offset : Nat) : Nat :=
  (starts.takeWhile (· ≤ offset)).length - 1

/-- Nothing is lost: the lines of a text and their breaks, put together, are the text. -/
theorem flatMap_full_lines (cs : List Char) : (lines cs).flatMap Line.full = cs :=
  flatMap_full_linesFrom [] cs

theorem linesFrom_ne_nil (seen cs : List Char) : linesFrom seen cs ≠ [] := by
  fun_induction linesFrom seen cs with
  | case1 => simp
  | case2 => simp
  | case3 => simp
  | case4 seen c cs _ _ ih => exact ih

end Linewise.Text
