import Linewise.Retokenizer

/-!
# Background parsers

A background parser reads the whole document, as it is at one moment, and reports what it notices.
`tokenErrors` is the one that comes with the engine: it reports every token that is an error.
-/

namespace Linewise

/-- How much a notice matters. -/
inductive NoticeLevel where
  | error
  | warning
  | information
  | hint
  deriving DecidableEq, Repr

/-- Something that a parser has noticed. -/
structure Notice where
  line : Nat
  /-- The document offset of what was noticed. -/
  offset : UInt64
  /-- Number of characters. -/
  length : Nat
  level : NoticeLevel
  message : String
  deriving DecidableEq, Repr

/-- Whether the notice covers a document offset. A notice without characters covers the one at its
place. -/
def Notice.covers (n : Notice) (offset : UInt64) : Bool :=
  n.offset ≤ offset && offset < n.offset + .ofNat (max n.length 1)

/-- A document as parsers read it. -/
structure Snapshot where
  source : Source
  retokenizer : Retokenizer

namespace Snapshot

open Retokenizer (Reader)

/-- The revision of the text. -/
def revision (s : Snapshot) : Nat := s.source.revision

/-- The identifier of the language in use. -/
def languageId (s : Snapshot) : String := s.retokenizer.languageId

/-- Number of lines. -/
def lineCount (s : Snapshot) : Nat := s.source.lineCount

/-- The tokens of a line. -/
def tokens (s : Snapshot) (line : Nat) : Reader Token.Sequence :=
  s.retokenizer.readTokens s.source line

end Snapshot

/-- A background parser. -/
structure BackgroundParser where
  /-- The name under which its notices are kept. -/
  name : String
  /-- Whether it can read a language. -/
  supports : (languageId : String) → Bool
  /-- Reads a document, after a number of earlier runs. The number stands for all that a parser may remember: what
  it has kept when it is run once more is settled by the documents that it was given before, and it can change none
  of them. So what a parser with a memory answers in the course of a document's life, one that goes by the number of
  its runs answers there too. -/
  parse : (earlierRuns : Nat) → Snapshot → Retokenizer.Reader (List Notice)

namespace BackgroundParser

open Retokenizer (Reader)

/-- The notices of the tokens of a line that are errors. -/
def errorNotices (line : Nat) (tokens : List Token) : List Notice :=
  (tokens.filter fun t => t.kind.isError).map fun t =>
    ⟨line, t.offset, t.length, .error, "invalid " ++ t.kind.name⟩

/-- The notices of lines that are errors. -/
def errorsOfLines (s : Snapshot) : List Nat → Reader (List Notice)
  | [] => return []
  | line :: below => do
    let here ← s.tokens line
    let rest ← errorsOfLines s below
    return errorNotices line here.tokens ++ rest

/-- Reports every token that is an error. -/
def tokenErrors : BackgroundParser where
  name := "token-errors"
  supports := fun _ => true
  parse := fun _ s => errorsOfLines s (List.range s.lineCount)

end BackgroundParser

end Linewise
