import Linewise.Token.Sequence

/-!
# Lexemes

A scanner cuts a line into lexemes: stretches of text, each with a kind. Where a lexeme lies follows
from the lengths of those before it, so lexemes carry no positions; `place` gives them their columns
and offsets (`place_moved`: the start of the line enters the offsets alone). Since lexemes hold the
text they stand for, a scan that loses nothing of a line is one whose reading has the line for its
text (`Reading.text`).
-/

namespace Linewise

/-- A classified stretch of text. -/
structure Token.Lexeme where
  kind : Token.Kind
  text : List Char
  language : Nat := 0
  deriving DecidableEq, Repr, Inhabited

/-- How a text reads: its lexemes, and the state behind it. -/
structure Token.Reading where
  lexemes : List Token.Lexeme
  state : LineState
  deriving DecidableEq, Repr, Inhabited

namespace Token

/-- The lexeme of a text, or none if the text is empty. -/
def Lexeme.cut (kind : Kind) (text : List Char) : List Lexeme :=
  if text.isEmpty then [] else [⟨kind, text, 0⟩]

/-- The same text as part of an embedded language. -/
def Lexeme.embed (language : Nat) (l : Lexeme) : Lexeme := { l with language := language }

/-- The tokens of lexemes that follow each other from a column on. -/
def Lexeme.place (lineStart : UInt64) (column : Nat) : List Lexeme → List Token
  | [] => []
  | l :: ls =>
    ⟨l.kind, column, l.text.length, lineStart + .ofNat column, l.language, false⟩ ::
      place lineStart (column + l.text.length) ls

/-- The start of the line enters the tokens of its lexemes only through their offsets. -/
theorem Lexeme.place_moved (lineStart : UInt64) (column : Nat) (ls : List Lexeme) :
    place lineStart column ls = (place 0 column ls).map (Token.moved lineStart) := by
  induction ls generalizing column with
  | nil => rfl
  | cons l ls ih => simp [place, Token.moved, ih (column + l.text.length)]

theorem Lexeme.flatten_text_cut (kind : Kind) (text : List Char) :
    ((Lexeme.cut kind text).map (·.text)).flatten = text := by
  cases text <;> simp [Lexeme.cut]

namespace Reading

/-- The text that was read. -/
def text (r : Reading) : List Char := (r.lexemes.map (·.text)).flatten

/-- Puts a lexeme in front. -/
def cons (l : Lexeme) (r : Reading) : Reading := { r with lexemes := l :: r.lexemes }

/-- Puts the lexemes of another reading in front. -/
def after (r : Reading) (ls : List Lexeme) : Reading := { r with lexemes := ls ++ r.lexemes }

@[simp] theorem text_cons (l : Lexeme) (r : Reading) : (r.cons l).text = l.text ++ r.text := rfl

@[simp] theorem text_after (r : Reading) (ls : List Lexeme) :
    (r.after ls).text = (ls.map (·.text)).flatten ++ r.text := by
  simp [text, after]

/-- The tokens of a line of the given length in which the text that was read starts at `column`. -/
def toSequence (r : Reading) (lineStart : UInt64) (column lineLength : Nat) : Sequence :=
  ⟨Lexeme.place lineStart column r.lexemes, endOfLine lineStart lineLength, r.state⟩

theorem toSequence_moved (r : Reading) (lineStart : UInt64) (column lineLength : Nat) :
    r.toSequence lineStart column lineLength =
      (r.toSequence 0 column lineLength).moved lineStart := by
  simp [toSequence, Sequence.moved, Lexeme.place_moved lineStart, endOfLine, Token.moved]

end Reading

end Token

end Linewise
