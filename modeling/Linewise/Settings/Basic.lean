/-!
# Settings

What can be set from outside. Every setting has a default.
-/

namespace Linewise

/-- What can be set. -/
structure Settings where
  /-- Number of characters of a line that are scanned. -/
  scanLimit : Nat := 10000
  /-- Milliseconds without an edit before background parsers run. -/
  parserDelay : Nat := 1250
  /-- The language of a document for which none is detected. -/
  defaultLanguage : String := "text/plain"
  /-- Whether addresses in comments and literals become links. -/
  detectLinks : Bool := true
  /-- Whether tokens are checked to tile their line. -/
  validateTokens : Bool := false
  deriving DecidableEq, Repr

end Linewise
