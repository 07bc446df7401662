/-!
# Failures

What is wrong with the text of a document is never a failure: scanners report it as tokens. A failure
says that the engine's own books do not fit the document, that a language is unknown, or that a file
cannot be read. The first kind is repaired by reading the document anew.
-/

namespace Linewise

/-- Why an operation of the engine gave no result. -/
inductive Failure where
  /-- A line was asked for that the document, or the row of its states, does not have. -/
  | lineOutOfRange (line lineCount : Nat)
  /-- The tokens of a line do not tile it. -/
  | malformedTokens (line : Nat) (reason : String)
  /-- The document changed while it was being read. -/
  | bufferChanged (expected found : Nat)
  /-- No scanner is registered for a language. -/
  | unknownLanguage (id : String)
  /-- A configuration is not well formed. -/
  | configuration
  /-- A file cannot be read as text. -/
  | unreadableFile
  deriving DecidableEq, Repr

namespace Failure

/-- The failure in words. -/
def message : Failure → String
  | .lineOutOfRange line lineCount => s!"line {line} out of range (document has {lineCount} lines)"
  | .malformedTokens line reason => s!"malformed token sequence on line {line}: {reason}"
  | .bufferChanged expected found =>
    s!"buffer changed during retokenization (expected revision {expected}, found {found})"
  | .unknownLanguage id => s!"unknown language: {id}"
  | .configuration => "config error"
  | .unreadableFile => "IO error"

/-- Whether reading the document anew mends what is wrong. -/
def isRepairable : Failure → Bool
  | .lineOutOfRange .. | .malformedTokens .. | .bufferChanged .. => true
  | .unknownLanguage _ | .configuration | .unreadableFile => false

end Failure

end Linewise
