import Linewise.Text.Class
import Linewise.Token.Lexeme

/-!
# Scanners

A scanner is what the engine knows of a language. It turns one line, without its break, and the state
left by the line before into tokens and the next state. Both passes are pure functions, and the pass
that computes only the state agrees with the one that makes tokens (`Scanner.Lawful`); on this the
upkeep of cached states rests.

A line is scanned up to a limit. What lies past it is one error token, and the state is that of the
part that was scanned.
-/

namespace Linewise

/-- How a language marks a comment on one line. -/
structure LineComment where
  opening : String
  /-- What ends the comment before the line's end, if the language wants it ended. -/
  closing : Option String
  deriving DecidableEq, Repr

/-- What the engine knows of a language. -/
structure Scanner where
  /-- The name shown to people. -/
  name : String
  /-- The tokens of a line, from the state in front of it and the document offset of its start. -/
  tokenize : (line : List Char) → (initial : LineState) → (lineStart : UInt64) → Token.Sequence
  /-- The state behind a line. -/
  stateAfter : (line : List Char) → (initial : LineState) → LineState
  /-- Whether a character belongs to a word. -/
  isWordChar : Char → Bool
  /-- Whether blocks stand between curly braces. -/
  usesBraces : Bool
  lineComment : Option LineComment

namespace Scanner

/-- A scanner that is given by its tokens alone: its states are read off them, its words are those of
plain text, and it has neither blocks nor comments. -/
def ofTokenize (name : String) (tokenize : List Char → LineState → UInt64 → Token.Sequence) : Scanner where
  name := name
  tokenize := tokenize
  stateAfter := fun line initial => (tokenize line initial 0).endState
  isWordChar := fun c => Text.isAlphanumeric c || c == '_'
  usesBraces := false
  lineComment := none

/-- The contract of a scanner: both passes agree on the state, and the start of the line enters the
tokens, the sentinel among them, only through their document offsets. -/
structure Lawful (s : Scanner) : Prop where
  endState_eq : ∀ line initial lineStart,
    (s.tokenize line initial lineStart).endState = s.stateAfter line initial
  tokenize_moved : ∀ line initial lineStart,
    s.tokenize line initial lineStart = (s.tokenize line initial 0).moved lineStart

/-- The tokens of a line of which at most `limit` characters are scanned. -/
def tokenizeCapped (s : Scanner) (line : List Char) (initial : LineState) (lineStart : UInt64)
    (limit : Nat) : Token.Sequence :=
  if line.length ≤ limit then s.tokenize line initial lineStart
  else
    let head := s.tokenize (line.take limit) initial lineStart
    let copied := head.tokens.foldl
      (fun b t => b.pushEmbedded t.kind t.start t.stop t.language) (Token.Builder.empty lineStart)
    (copied.push .errorWord limit line.length).finish line.length head.endState

/-- The state behind a line of which at most `limit` characters are scanned. -/
def stateAfterCapped (s : Scanner) (line : List Char) (initial : LineState) (limit : Nat) :
    LineState :=
  s.stateAfter (line.take limit) initial

end Scanner

end Linewise
