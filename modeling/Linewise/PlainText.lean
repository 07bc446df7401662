import Linewise.Scanner
import Linewise.Text.Search

/-!
# Plain text

Plain text is words and blanks in turn. Nothing is ever carried from line to line.
-/

namespace Linewise.PlainText

open Token (Lexeme)

/-- The words and the runs of blanks of a text. -/
def lexemes : List Char → List Lexeme
  | [] => []
  | c :: cs =>
    let more := Text.run (fun x => Text.isBlank x == Text.isBlank c) cs
    ⟨if Text.isBlank c then .whitespace else .identifier, c :: cs.take more, 0⟩ ::
      lexemes (cs.drop more)
termination_by cs => cs.length
decreasing_by simp only [List.length_drop, List.length_cons]; omega

/-- Nothing is lost: the lexemes of a text, put together, are the text. -/
theorem flatten_lexemes (cs : List Char) : ((lexemes cs).map (·.text)).flatten = cs := by
  fun_induction lexemes cs with
  | case1 => rfl
  | case2 c cs more ih => simp [ih]

/-- The scanner of plain text. -/
def scanner : Scanner where
  name := "Plain Text"
  tokenize := fun line _ lineStart =>
    (Token.Reading.mk (lexemes line) .neutral).toSequence lineStart 0 line.length
  stateAfter := fun _ _ => .neutral
  isWordChar := fun c => Text.isAlphanumeric c || c == '_'
  usesBraces := false
  lineComment := none

theorem scanner_lawful : scanner.Lawful where
  endState_eq _ _ _ := rfl
  tokenize_moved line _ lineStart :=
    (Token.Reading.mk (lexemes line) .neutral).toSequence_moved lineStart 0 line.length

end Linewise.PlainText
