import Linewise.Token.Kind

/-!
# Tokens

A token is a span of one line together with its kind. It is placed twice: by its column in the line,
and by its offset in the document. Offsets are 64-bit words, so sums of them wrap around.
-/

namespace Linewise

/-- A classified span of a line. -/
structure Token where
  kind : Token.Kind
  /-- Column of the first character. -/
  start : Nat
  /-- Number of characters. -/
  length : Nat
  /-- Offset of the first character in the document. -/
  offset : UInt64
  /-- The language of the span: 0 for that of the line, more for an embedded one. -/
  language : Nat
  /-- Whether the span is a hyperlink. -/
  isLink : Bool
  deriving DecidableEq, Repr, Inhabited

namespace Token

/-- Column just behind the token. -/
def stop (t : Token) : Nat := t.start + t.length

/-- Document offset just behind the token. -/
def endOffset (t : Token) : UInt64 := t.offset + .ofNat t.length

/-- Whether a document offset lies in the token. -/
def containsOffset (t : Token) (offset : UInt64) : Bool :=
  t.offset ≤ offset && offset < t.endOffset

/-- Whether the token is one character long. -/
def isSingleChar (t : Token) : Bool := t.length == 1

/-- Whether the token marks the end of a line. -/
def isSentinel (t : Token) : Bool := t.kind == .null

/-- The same token of a line that starts further behind in the document. -/
def moved (distance : UInt64) (t : Token) : Token := { t with offset := distance + t.offset }

/-- The characters of the token in its line, as far as the line has them. -/
def text (t : Token) (line : List Char) : List Char := (line.drop t.start).take t.length

end Token

end Linewise
